import Asm6510.Command.Plan

/-! The program: arguments, files and standard output of the operating system. -/

namespace Asm6510.Main

open Command (Options Outlet)
open Source (Library Path)

/-- The text of a file, if it can be read. -/
def read (path : Path) : IO (Option String) := do
  try
    return some (← IO.FS.readFile path.text)
  catch _ =>
    return none

/-- Reads a file, and all that could be included from it, on top of the files read so far. Each
path is read as it is spelt, since not every spelling of a file's path leads to it.
-/
partial def gather (root : Path) (path : Path) (files : List (Path × String))
    : IO (List (Path × String)) := do
  if (files.lookup path).isSome then
    return files
  match ← read path with
  | none => return files
  | some code =>
      (Source.quotedTexts code).foldlM (fun files name => gather root (root.join ⟨name⟩) files)
        (files ++ [(path, code)])

/-- The sources that a run with these arguments can reach. -/
def sources (arguments : List String) : IO Library := do
  match Options.parse arguments with
  | .ok options =>
      let root := options.input.parent?.getD ⟨"."⟩
      return Library.ofLoaded (← gather root options.input [])
  | .error _ => return Library.ofLoaded []

/-- Writes a file, telling apart a file that cannot be created from one that cannot be filled. -/
def store (path : Path) (contents : List UInt8) : IO (Except Cause Unit) := do
  let handle? ← try
      some <$> IO.FS.Handle.mk path.text .write
    catch _ =>
      pure none
  match handle? with
  | none => return .error (.fileCreate path.text)
  | some handle =>
      try
        handle.write ⟨contents.toArray⟩
        handle.flush
        return .ok ()
      catch _ =>
        return .error (.fileWrite path.text)

/-- What is told about wrong arguments. -/
def usage : String :=
  "usage: [-b BASE] [-o OUTPUT] [-l LEVEL] [-s SYMBOLS] [-d] [-n] [-r] [-V] INPUT"

/-- Standard output and the files of the operating system. -/
def outlet : Outlet IO where
  print := IO.print
  store := store

end Asm6510.Main

/-- Assembles the file named by the arguments. -/
def main (arguments : List String) : IO UInt32 := do
  let library ← Asm6510.Main.sources arguments
  let code ← Asm6510.Command.command Asm6510.Main.outlet library arguments
  if code == 2 then
    IO.eprintln Asm6510.Main.usage
  return code
