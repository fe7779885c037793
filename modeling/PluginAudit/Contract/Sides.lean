import PluginAudit.Code.Call
import PluginAudit.Code.Label
import PluginAudit.Finding
import PluginAudit.NameSet

/-!
# The two sides of the message contract

A client sends requests and handles responses; a server handles requests and sends responses. Each
side is read off the calls and the labels in its own source text.
-/
namespace PluginAudit.Contract

structure Client where
  requests : NameSet
  handled : NameSet
deriving DecidableEq

structure Server where
  handled : NameSet
  responses : NameSet
deriving DecidableEq

/-- What the name of a request begins with. -/
def requestStart : Text := lit "get_"

/-- Responses that a server sends without a request. They count as sent. -/
def internalResponses : List Text := [lit "ui_autotest_start", lit "open_main_menu"]

/-- Whether a name begins as a request does, and goes on. -/
def isRequest (name : Text) : Bool := (Text.after? requestStart name).any (!·.isEmpty)

/-- The value of the second argument of a call. -/
def second? (arguments : List Text) : Option Text :=
  arguments[1]?.bind fun argument => (Code.single? argument).map Code.Literal.value

/-- The value of the only argument of a call. -/
def only? : List Text → Option Text
  | [argument] => (Code.single? argument).map Code.Literal.value
  | _ => none

/-- What is picked from the arguments of the calls to a function. -/
def literals (pick : List Text → Option Text) (function t : Text) : List Text :=
  (Code.calls (.call function) t).filterMap fun (_, arguments) => pick arguments

def branchLabels (t : Text) : List Text := (Code.labels (lit "case") t).map Code.Literal.value

/-- Reads a client: it names its requests in full where it sends them, and without what they begin
    with where it asks for an update. -/
def Client.ofText (t : Text) : Client where
  requests := .ofList <|
    (literals second? (lit "sendToServer") t).filter isRequest ++
    ((literals only? (lit "requestUpdate") t).filter (!·.isEmpty)).map (requestStart ++ ·)
  handled := .ofList ((branchLabels t).filter (!·.isEmpty))

/-- Reads a server. Labels that do not name requests belong to other branches. -/
def Server.ofText (t : Text) : Server where
  handled := .ofList ((branchLabels t).filter isRequest)
  responses := .ofList ((literals second? (lit "sendData") t).filter (!·.isEmpty))

def Server.sent (server : Server) : NameSet := server.responses ∪ .ofList internalResponses

def findings (locator : Text) (problem : List Text → Problem) (names : NameSet) : List Finding :=
  if names.isEmpty then []
  else [.error (.artifact locator) (.contract (problem names.toList))]

/-- Every way in which the two sides differ, each a difference of two sets. -/
def compare (client : Client) (server : Server) : List Finding :=
  findings (lit "UI->Server") .unhandledRequests (client.requests \ server.handled) ++
  findings (lit "Server") .unrequestedHandlers (server.handled \ client.requests) ++
  findings (lit "Server->UI") .unhandledResponses (server.sent \ client.handled) ++
  findings (lit "UI") .unsentResponses (client.handled \ server.sent)

def check (client server : Text) : List Finding := compare (.ofText client) (.ofText server)

end PluginAudit.Contract
