import PluginAudit.Main
import PluginAudit.Store.Memory
import PluginAudit.Store.Tree
import PluginAudit.Proofs.Code.WrittenCall
import PluginAudit.Proofs.Command.Validity
import PluginAudit.Proofs.Command.RoundTrip
import PluginAudit.Proofs.Command.Claims
import PluginAudit.Proofs.Command.Collisions
import PluginAudit.Proofs.Code.Yields
import PluginAudit.Proofs.Contract.Lines
import PluginAudit.Proofs.Contract.Differences
import PluginAudit.Proofs.Code.ListedCall
import PluginAudit.Proofs.Audit.Parts
import PluginAudit.Proofs.Audit.Outcome
import PluginAudit.Proofs.Audit.Isolation
import PluginAudit.Proofs.Store.Creation
import PluginAudit.Proofs.Audit.Interchange
import PluginAudit.Proofs.Code.Closing
import PluginAudit.Proofs.Code.Pieces
import PluginAudit.Proofs.Code.LeftmostCall
import PluginAudit.Proofs.Code.CallArguments
import PluginAudit.Proofs.Code.Spelling
import PluginAudit.Proofs.Code.ArgumentLiterals
import PluginAudit.Proofs.Code.LeftmostLabel
import PluginAudit.Proofs.Code.Joined
import PluginAudit.Proofs.Audit.JoinedSources
import PluginAudit.Proofs.Command.Fields
import PluginAudit.Proofs.Command.Records
import PluginAudit.Proofs.Command.Independence
import PluginAudit.Proofs.Card.Complement
import PluginAudit.Proofs.Recipe.Judgment
import PluginAudit.Proofs.Permission.Section
import PluginAudit.Proofs.Store.History
import PluginAudit.Proofs.Code.Depth
import PluginAudit.Proofs.Report.Coloring
import PluginAudit.Proofs.Audit.PrintedLines
import PluginAudit.Proofs.Code.Spans
