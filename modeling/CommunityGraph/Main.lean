import CommunityGraph.CommandLine

/-! The program: reads the files that its arguments name, runs, and prints. -/
namespace CommunityGraph

open CommandLine

def readFile? (path : String) : IO (Option (List UInt8)) := do
  try
    let bytes ← IO.FS.readBinFile path
    pure (some bytes.toList)
  catch _ => pure none

def writeFile (path : String) (bytes : List UInt8) : IO Bool := do
  try
    IO.FS.writeBinFile path ⟨bytes.toArray⟩
    pure true
  catch _ => pure false

def inputPaths (a : Arguments) : List String :=
  a.config.toList ++ a.algorithmConfig.toList ++ [a.graphPath]

def readInputs : List String → IO (List (String × List UInt8))
  | [] => pure []
  | path :: paths => do
      let content ← readFile? path
      let rest ← readInputs paths
      match content with
      | none => pure rest
      | some bytes => pure ((path, bytes) :: rest)

def complain (text : String) : IO Unit := do
  let err ← IO.getStderr
  err.putStrLn ("ERROR quasar failed error=" ++ text)

end CommunityGraph

open CommunityGraph CommandLine in
def main (args : List String) : IO UInt32 := do
  let inputs ← match Arguments.ofList args with
    | .error _ => pure []
    | .ok a => readInputs (inputPaths a)
  let report := CommandLine.run args (fun path => inputs.lookup path) fun _ => true
  let err ← IO.getStderr
  for line in report.logged do
    err.putStrLn line.render
  for line in report.printed do
    IO.println line
  match report.error with
  | some text => complain text
  | none => pure ()
  match report.written with
  | none => pure (UInt32.ofNat report.exitCode)
  | some (path, bytes) => do
      let written ← writeFile path bytes
      if written then pure (UInt32.ofNat report.exitCode)
      else do
        complain EngineError.unreadable.message
        pure 1
