import PluginAudit.Finding

namespace PluginAudit

/-- The findings of an audit, in order. -/
structure Report where
  findings : List Finding
deriving DecidableEq

namespace Report

def empty : Report := ⟨[]⟩

def push (r : Report) (f : Finding) : Report := ⟨r.findings ++ [f]⟩

def extend (r : Report) (fs : List Finding) : Report := ⟨r.findings ++ fs⟩

def errors (r : Report) : List Finding := r.findings.filter Finding.isError

def warnings (r : Report) : List Finding := r.findings.filter (!·.isError)

def isClean (r : Report) : Bool := r.errors.isEmpty

def exitCode (r : Report) : Nat := if r.isClean then 0 else 1

def errorLines (r : Report) : List Text := r.errors.map Finding.text

end Report
end PluginAudit
