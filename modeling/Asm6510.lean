import Asm6510.Machine.Record
import Asm6510.Main
import Asm6510.Proofs.Assembly.Accounting
import Asm6510.Proofs.Assembly.Appending
import Asm6510.Proofs.Assembly.Bounds
import Asm6510.Proofs.Assembly.Declaring
import Asm6510.Proofs.Assembly.Decoding
import Asm6510.Proofs.Assembly.Diagnostics
import Asm6510.Proofs.Assembly.Drift
import Asm6510.Proofs.Assembly.FixedPoint
import Asm6510.Proofs.Assembly.Flattening
import Asm6510.Proofs.Assembly.Independence
import Asm6510.Proofs.Assembly.Linking
import Asm6510.Proofs.Assembly.Loading
import Asm6510.Proofs.Assembly.Phases
import Asm6510.Proofs.Assembly.Registration
import Asm6510.Proofs.Assembly.Relocation
import Asm6510.Proofs.Assembly.Substitution
import Asm6510.Proofs.Command.Frame
import Asm6510.Proofs.Machine.Refusals
import Asm6510.Proofs.Report.Table
import Asm6510.Proofs.Source.Comments
import Asm6510.Proofs.Source.Kinds
import Asm6510.Proofs.Source.Nesting
import Asm6510.Proofs.Source.Unrolling
