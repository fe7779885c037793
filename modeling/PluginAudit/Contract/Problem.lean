import PluginAudit.Text.Basic

/-!
# Problems of the message contract

Each problem lists the messages that it holds of.
-/
namespace PluginAudit.Contract

/-- Messages that one side sends or handles and the other does not. -/
inductive Problem
  | unhandledRequests (names : List Text)
  | unrequestedHandlers (names : List Text)
  | unhandledResponses (names : List Text)
  | unsentResponses (names : List Text)
deriving DecidableEq

def Problem.message : Problem → Text
  | unhandledRequests names => lit "no handlers for " ++ Text.enumerate names
  | unrequestedHandlers names => lit "handlers with no client request: " ++ Text.enumerate names
  | unhandledResponses names => lit "client does not handle " ++ Text.enumerate names
  | unsentResponses names => lit "handlers with no server response: " ++ Text.enumerate names

end PluginAudit.Contract
