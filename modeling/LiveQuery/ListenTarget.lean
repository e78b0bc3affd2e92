import LiveQuery.Message
import LiveQuery.Text.Quoted

namespace LiveQuery

/-- What a watch listens to: one document, or an encoded query over the documents under a parent. -/
inductive ListenTarget where
  | document (path : Path)
  | query (parent : String) (structured : Bytes)
  deriving DecidableEq

namespace ListenTarget

/-- The id of the only target of a stream. -/
def watchId : Int32 := 1

/-- The target to add, from where the token left off. -/
def toTarget (target : ListenTarget) (id : Int32) (token : Option Bytes) : Target :=
  match target with
  | document path => (Target.documents id [path.text]).withResumeToken token
  | query parent structured => (Target.query id parent structured).withResumeToken token

def debugText : ListenTarget → String
  | document path => "Document(" ++ path.debugText ++ ")"
  | query parent structured =>
    "Query \x7b parent: " ++ Text.quoted parent ++ ", structured_query: [" ++
      ", ".intercalate (structured.map fun b => toString b.toNat) ++ "] \x7d"

end ListenTarget

end LiveQuery
