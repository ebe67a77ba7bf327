import ResourceWatch.CommandLine

/-!
# The program

Runs the command line on the files at hand: looks up what the run may read, runs it on the tree of that, and writes
back what changed.  A changed file is written where it is, so that it keeps its mode.
-/

namespace ResourceWatch.Main

open CommandLine

/-- The variables of this process. -/
def environment : IO Environment := do
  let bytes ← IO.FS.readBinFile "/proc/self/environ"
  let entries := (bytes.toList.splitOn 0).filterMap fun entry => String.fromUTF8? ⟨entry.toArray⟩
  return entries.map fun entry =>
    let name := entry.toList.takeWhile (· != '=')
    (String.ofList name, String.ofList (entry.toList.drop (name.length + 1)))

def absolute (p : Place) : String := "/" ++ FileTree.joinNames p

/-- Adds what stands at a place. -/
def look (t : FileTree) (p : Place) : IO FileTree := do
  let path := (← IO.currentDir) / absolute p
  if ← path.isDir then return t.put p .directory
  if ← path.pathExists then
    let bytes ← IO.FS.readBinFile path
    return t.put p (.file 0 (.ofBytes bytes.toList))
  return t

/-- Adds what stands along a path. -/
def follow (tree : FileTree) (path : String) : IO FileTree := do
  let mut t := tree
  let mut here := t.start path
  for name in FileTree.names path do
    match t.enter here name with
    | .error _ => return t
    | .ok p =>
      t ← look t p
      here := p
  return t

/-- The tree of all that a run may read. -/
def survey (env : Environment) : IO FileTree := do
  let here := (← IO.currentDir).toString
  let mut t ← follow { workingDirectory := FileTree.names here } here
  if let some name := env.lookup settingsVariable then
    let path := t.absolutePath name
    t ← follow t path
    if let some path := FileTree.withExtension? settingsExtension path then t ← follow t path
  if let .ok s := settings env t then
    if let .ok path := targetPath env s.codegen.targetEnv then t ← follow t path
  return t

end ResourceWatch.Main

open ResourceWatch in
def main (args : List String) : IO UInt32 := do
  let env ← Main.environment
  let before ← Main.survey env
  let (report, after) := CommandLine.run args env before
  for (p, node) in after.nodes do
    if before.find? p ≠ some node then
      if let .file _ (.text text) := node then IO.FS.writeFile (Main.absolute p) text
  IO.print report.output
  if report.code = 2 then IO.eprint CommandLine.helpText
  if let some message := report.message then IO.eprintln (CommandLine.programName ++ ": " ++ message)
  return report.code
