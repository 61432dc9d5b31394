import Asm6510.Machine.InstructionSet

/-! The documented instructions of the 6510 and their opcodes. -/

namespace Asm6510.Machine

namespace Cpu6510

/-- The mnemonics and what they stand for, in alphabetical order. -/
def mnemonics : List (String × String) :=
  [("ADC", "Add Memory to Accumulator with Carry"),
    ("AND", "AND Memory with Accumulator"),
    ("ASL", "Shift Left One Bit (Memory or Accumulator)"),
    ("BCC", "Branch on Carry Clear"),
    ("BCS", "Branch on Carry Set"),
    ("BEQ", "Branch on Result Zero"),
    ("BIT", "Test Bits in Memory with Accumulator"),
    ("BMI", "Branch on Result Minus"),
    ("BNE", "Branch on Result not Zero"),
    ("BPL", "Branch on Result Plus"),
    ("BRK", "Force Break"),
    ("BVC", "Branch on Overflow Clear"),
    ("BVS", "Branch on Overflow Set"),
    ("CLC", "Clear Carry Flag"),
    ("CLD", "Clear Decimal Mode"),
    ("CLI", "Clear Interrupt Disable Bit"),
    ("CLV", "Clear Overflow Flag"),
    ("CMP", "Compare Memory and Accumulator"),
    ("CPX", "Compare Memory and Index X"),
    ("CPY", "Compare Memory and Index Y"),
    ("DEC", "Decrement Memory by One"),
    ("DEX", "Decrement Index X by One"),
    ("DEY", "Decrement Index Y by One"),
    ("EOR", "Exclusive-OR Memory with Accumulator"),
    ("INC", "Increment Memory by One"),
    ("INX", "Increment Index X by One"),
    ("INY", "Increment Index Y by One"),
    ("JMP", "Jump to New Location"),
    ("JSR", "Jump to New Location Saving Return Address"),
    ("LDA", "Load Accumulator with Memory"),
    ("LDX", "Load Index X with Memory"),
    ("LDY", "Load Index Y with Memory"),
    ("LSR", "Shift Right One Bit (Memory or Accumulator)"),
    ("NOP", "No Operation"),
    ("ORA", "OR Memory with Accumulator"),
    ("PHA", "Push Accumulator on Stack"),
    ("PHP", "Push Processor Status on Stack"),
    ("PLA", "Pull Accumulator from Stack"),
    ("PLP", "Pull Processor Status from Stack"),
    ("ROL", "Rotate One Bit Left (Memory or Accumulator)"),
    ("ROR", "Rotate One Bit Right (Memory or Accumulator)"),
    ("RTI", "Return from Interrupt"),
    ("RTS", "Return from Subroutine"),
    ("SBC", "Subtract Memory from Accumulator with Borrow"),
    ("SEC", "Set Carry Flag"),
    ("SED", "Set Decimal Mode"),
    ("SEI", "Set Interrupt Disable Status"),
    ("STA", "Store Accumulator in Memory"),
    ("STX", "Store Index X in Memory"),
    ("STY", "Store Index Y in Memory"),
    ("TAX", "Transfer Accumulator to Index X"),
    ("TAY", "Transfer Accumulator to Index Y"),
    ("TSX", "Transfer Stack Pointer to Index X"),
    ("TXA", "Transfer Index X to Accumulator"),
    ("TXS", "Transfer Index X to Stack Pointer"),
    ("TYA", "Transfer Index Y to Accumulator")]

/-- The documented opcodes. Operands are tried against the modes of a mnemonic in this order. -/
def opcodes : List (String × Mode × UInt8) :=
  [("ADC", .immediate, 0x69),
    ("ADC", .zeroPage, 0x65),
    ("ADC", .zeroPageX, 0x75),
    ("ADC", .absolute, 0x6D),
    ("ADC", .absoluteX, 0x7D),
    ("ADC", .absoluteY, 0x79),
    ("ADC", .indexedIndirectX, 0x61),
    ("ADC", .indirectIndexedY, 0x71),
    ("AND", .immediate, 0x29),
    ("AND", .zeroPage, 0x25),
    ("AND", .zeroPageX, 0x35),
    ("AND", .absolute, 0x2D),
    ("AND", .absoluteX, 0x3D),
    ("AND", .absoluteY, 0x39),
    ("AND", .indexedIndirectX, 0x21),
    ("AND", .indirectIndexedY, 0x31),
    ("ASL", .accumulator, 0x0A),
    ("ASL", .zeroPage, 0x06),
    ("ASL", .zeroPageX, 0x16),
    ("ASL", .absolute, 0x0E),
    ("ASL", .absoluteX, 0x1E),
    ("BCC", .relative, 0x90),
    ("BCS", .relative, 0xB0),
    ("BEQ", .relative, 0xF0),
    ("BMI", .relative, 0x30),
    ("BNE", .relative, 0xD0),
    ("BPL", .relative, 0x10),
    ("BVC", .relative, 0x50),
    ("BVS", .relative, 0x70),
    ("BIT", .zeroPage, 0x24),
    ("BIT", .absolute, 0x2C),
    ("BRK", .implied, 0x00),
    ("CLC", .implied, 0x18),
    ("CLD", .implied, 0xD8),
    ("CLI", .implied, 0x58),
    ("CLV", .implied, 0xB8),
    ("CMP", .immediate, 0xC9),
    ("CMP", .zeroPage, 0xC5),
    ("CMP", .zeroPageX, 0xD5),
    ("CMP", .absolute, 0xCD),
    ("CMP", .absoluteX, 0xDD),
    ("CMP", .absoluteY, 0xD9),
    ("CMP", .indexedIndirectX, 0xC1),
    ("CMP", .indirectIndexedY, 0xD1),
    ("CPX", .immediate, 0xE0),
    ("CPX", .zeroPage, 0xE4),
    ("CPX", .absolute, 0xEC),
    ("CPY", .immediate, 0xC0),
    ("CPY", .zeroPage, 0xC4),
    ("CPY", .absolute, 0xCC),
    ("DEC", .zeroPage, 0xC6),
    ("DEC", .zeroPageX, 0xD6),
    ("DEC", .absolute, 0xCE),
    ("DEC", .absoluteX, 0xDE),
    ("DEX", .implied, 0xCA),
    ("DEY", .implied, 0x88),
    ("EOR", .immediate, 0x49),
    ("EOR", .zeroPage, 0x45),
    ("EOR", .zeroPageX, 0x55),
    ("EOR", .absolute, 0x4D),
    ("EOR", .absoluteX, 0x5D),
    ("EOR", .absoluteY, 0x59),
    ("EOR", .indexedIndirectX, 0x41),
    ("EOR", .indirectIndexedY, 0x51),
    ("INC", .zeroPage, 0xE6),
    ("INC", .zeroPageX, 0xF6),
    ("INC", .absolute, 0xEE),
    ("INC", .absoluteX, 0xFE),
    ("INX", .implied, 0xE8),
    ("INY", .implied, 0xC8),
    ("JMP", .absolute, 0x4C),
    ("JMP", .indirect, 0x6C),
    ("JSR", .absolute, 0x20),
    ("LDA", .immediate, 0xA9),
    ("LDA", .zeroPage, 0xA5),
    ("LDA", .zeroPageX, 0xB5),
    ("LDA", .absolute, 0xAD),
    ("LDA", .absoluteX, 0xBD),
    ("LDA", .absoluteY, 0xB9),
    ("LDA", .indexedIndirectX, 0xA1),
    ("LDA", .indirectIndexedY, 0xB1),
    ("LDX", .immediate, 0xA2),
    ("LDX", .zeroPage, 0xA6),
    ("LDX", .zeroPageY, 0xB6),
    ("LDX", .absolute, 0xAE),
    ("LDX", .absoluteY, 0xBE),
    ("LDY", .immediate, 0xA0),
    ("LDY", .zeroPage, 0xA4),
    ("LDY", .zeroPageX, 0xB4),
    ("LDY", .absolute, 0xAC),
    ("LDY", .absoluteX, 0xBC),
    ("LSR", .accumulator, 0x4A),
    ("LSR", .zeroPage, 0x46),
    ("LSR", .zeroPageX, 0x56),
    ("LSR", .absolute, 0x4E),
    ("LSR", .absoluteX, 0x5E),
    ("NOP", .implied, 0xEA),
    ("ORA", .immediate, 0x09),
    ("ORA", .zeroPage, 0x05),
    ("ORA", .zeroPageX, 0x15),
    ("ORA", .absolute, 0x0D),
    ("ORA", .absoluteX, 0x1D),
    ("ORA", .absoluteY, 0x19),
    ("ORA", .indexedIndirectX, 0x01),
    ("ORA", .indirectIndexedY, 0x11),
    ("PHA", .implied, 0x48),
    ("PHP", .implied, 0x08),
    ("PLA", .implied, 0x68),
    ("PLP", .implied, 0x28),
    ("ROL", .accumulator, 0x2A),
    ("ROL", .zeroPage, 0x26),
    ("ROL", .zeroPageX, 0x36),
    ("ROL", .absolute, 0x2E),
    ("ROL", .absoluteX, 0x3E),
    ("ROR", .accumulator, 0x6A),
    ("ROR", .zeroPage, 0x66),
    ("ROR", .zeroPageX, 0x76),
    ("ROR", .absolute, 0x6E),
    ("ROR", .absoluteX, 0x7E),
    ("RTI", .implied, 0x40),
    ("RTS", .implied, 0x60),
    ("SBC", .immediate, 0xE9),
    ("SBC", .zeroPage, 0xE5),
    ("SBC", .zeroPageX, 0xF5),
    ("SBC", .absolute, 0xED),
    ("SBC", .absoluteX, 0xFD),
    ("SBC", .absoluteY, 0xF9),
    ("SBC", .indexedIndirectX, 0xE1),
    ("SBC", .indirectIndexedY, 0xF1),
    ("SEC", .implied, 0x38),
    ("SED", .implied, 0xF8),
    ("SEI", .implied, 0x78),
    ("STA", .zeroPage, 0x85),
    ("STA", .zeroPageX, 0x95),
    ("STA", .absolute, 0x8D),
    ("STA", .absoluteX, 0x9D),
    ("STA", .absoluteY, 0x99),
    ("STA", .indexedIndirectX, 0x81),
    ("STA", .indirectIndexedY, 0x91),
    ("STX", .zeroPage, 0x86),
    ("STX", .zeroPageY, 0x96),
    ("STX", .absolute, 0x8E),
    ("STY", .zeroPage, 0x84),
    ("STY", .zeroPageX, 0x94),
    ("STY", .absolute, 0x8C),
    ("TAX", .implied, 0xAA),
    ("TAY", .implied, 0xA8),
    ("TSX", .implied, 0xBA),
    ("TXA", .implied, 0x8A),
    ("TXS", .implied, 0x9A),
    ("TYA", .implied, 0x98)]

end Cpu6510

/-- The documented instruction set, built entry by entry. -/
def InstructionSet.cpu6510 : InstructionSet :=
  let registered := Cpu6510.mnemonics.foldl
    (fun set entry => (set.register entry.1 entry.2).1) InstructionSet.empty
  Cpu6510.opcodes.foldl
    (fun set entry => (set.bind entry.1 entry.2.1 entry.2.2).1) registered

end Asm6510.Machine
