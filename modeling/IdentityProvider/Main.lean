import IdentityProvider.CommandLine
import IdentityProvider.Config.Loading
import IdentityProvider.Log.Line
import IdentityProvider.Server

/-
  The program: it loads the settings, sets up the log and builds the server, and then tells at
  which address the server is to be served.  Serving is left to whoever holds the router.
-/

namespace IdentityProvider.Main

/-- The variables of these names that are set. -/
def environment (names : List String) : IO Environment := do
  let values ← names.mapM fun name => do return (← IO.getEnv name).map (name, ·)
  return ⟨(values.filterMap id).map fun (name, value) => (name, Text.Utf8.encode value)⟩

/-- What there is at a path, if anything is.  A path that is not text cannot be opened from here. -/
def entry? (path : List UInt8) : IO (Option (List UInt8 × FileEntry)) := do
  let some name := Text.Utf8.text? path | return none
  try return some (path, .file (← IO.FS.readBinFile name).toList)
  catch
    | .inappropriateType .. => return some (path, .directory)
    | _ => return none

/-- The files and the directories at these paths. -/
def files (paths : List (List UInt8)) : IO Files := do
  return ⟨(← paths.mapM entry?).filterMap id⟩

/-- What is remarked on a text that cannot be read. -/
def remark : Toml.Remark := fun _ => "the text is not a TOML document of the wanted kind"

/-- Says why the program stops. -/
def stop (code : UInt32) (texts : List String) : IO UInt32 := do
  IO.eprintln ("error: " ++ String.intercalate ": " texts)
  return code

/-- Builds the server that the settings describe, at another address if one is given. -/
def serve (config : Config) (listen : Option Address) : IO UInt32 := do
  let bundle ← files (config.messages.path.toList.map Text.Utf8.encode)
  let (built, events) := Server.build bundle config .empty
  for line in (Log.Sink.ofSettings config.logging).lines events do IO.println line
  match built with
  | .error error => stop 1 [error.text remark]
  | .ok server =>
    let server := (listen.map server.withListenAddress).getD server
    IO.println ("listening on " ++ server.listenAddress.text)
    return 0

/-- Does what the command line asks for. -/
def run (words : List String) : IO UInt32 := do
  let env ← environment [CommandLine.Setting.config.variableName,
    CommandLine.Setting.listen.variableName]
  match CommandLine.read env words with
  | .error refusal => stop 2 [refusal.text]
  | .ok arguments =>
    let found ← files [arguments.config]
    let names := Placeholder.variableNames ((found.textAt arguments.config).toOption.getD "")
    match Config.load found (← environment names) arguments.config with
    | .error error => stop 1 (error.text :: (error.cause? remark).toList)
    | .ok config => serve config arguments.listen

end IdentityProvider.Main

/-- The entry of the program; its own name is the first word of the command line. -/
def main (words : List String) : IO UInt32 := IdentityProvider.Main.run ("idp" :: words)
