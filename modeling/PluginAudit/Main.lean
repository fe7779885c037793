import PluginAudit.CommandLine.Response
import PluginAudit.Store.Survey

namespace PluginAudit.Program

def failure : IO.Error → ReadFailure
  | .noFileOrDirectory _ _ _ => .notFound
  | .inappropriateType _ _ details => .failed (Text.lowercase details.toList)
  | .permissionDenied _ _ _ => .failed (lit "permission denied")
  | .invalidArgument _ _ _ => .failed (lit "filesystem loop or indirection limit (e.g. symlink loop)")
  | _ => .failed (lit "other error")

def readText (p : Path) : IO (Except ReadFailure Text) := do
  try
    let bytes ← IO.FS.readBinFile (String.ofList p.spelling)
    match String.fromUTF8? bytes with
    | some s => return .ok s.toList
    | none => return .error (.failed (lit "invalid data"))
  catch e => return .error (failure e)

def present (p : Path) : IO Bool := do
  if p.spelling.isEmpty then return false
  ((← IO.currentDir) / String.ofList p.spelling).pathExists

/-- The files below a directory. Links are not followed. -/
partial def filesBelow (p : Path) : IO (List Path) := do
  let entries ← try ((← IO.currentDir) / String.ofList p.spelling).readDir catch _ => pure #[]
  let mut files := []
  for entry in entries do
    let child := p.join entry.fileName.toList
    match (← entry.path.symlinkMetadata).type with
    | .dir => files := files ++ (← filesBelow child)
    | .file => files := files ++ [child]
    | _ => pure ()
  return files

def survey (request : CommandLine.Request) : IO Survey := do
  let sources := request.sources?.toList
  let files ← sources.flatMapM fun p => do if (← present p) then filesBelow p else return []
  let reads ← (request.files ++ files).mapM fun p => return (p, ← readText p)
  return ⟨reads, ← (request.files ++ sources).filterM present, files⟩

end PluginAudit.Program

open PluginAudit in
def main (args : List String) : IO UInt32 := do
  let request := CommandLine.Request.ofArguments (args.map String.toList)
  let response := CommandLine.respond (← Program.survey request).toStore request
  IO.print (String.ofList response.output)
  return response.exit.toUInt32
