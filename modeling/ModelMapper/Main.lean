import ModelMapper.Cli

/-! # The program

Looks things up in the file system and the environment, and writes what the command line asks
for.
-/

namespace ModelMapper.Main

/-- What stands at a path. What is there but cannot be read counts as a directory. -/
def look (path : String) : IO Entry := do
  try
    let content ← IO.FS.readBinFile path
    pure (.file content.toList)
  catch
    | .noFileOrDirectory .. => pure .missing
    | _ => pure .directory

def surroundings : Surroundings IO := ⟨look, fun name => IO.getEnv name⟩

end ModelMapper.Main

def main (args : List String) : IO UInt32 := do
  let exit ← ModelMapper.Cli.run ModelMapper.Main.surroundings args
  IO.print exit.output
  IO.eprint exit.errors
  pure exit.code.toUInt32
