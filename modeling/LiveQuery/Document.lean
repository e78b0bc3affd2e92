import LiveQuery.Path
import LiveQuery.Value

namespace LiveQuery

/-- One version of a document as the backend sends it. -/
structure Document where
  name : String
  fields : List (String × Value)
  createTime : Option Timestamp
  updateTime : Option Timestamp

def Document.equal (d e : Document) : Bool :=
  d.name == e.name && Value.equalFields d.fields e.fields &&
    d.createTime == e.createTime && d.updateTime == e.updateTime

/-- A document version in a result set, with the read time of the snapshot that brought it. -/
structure QueryDocument where
  document : Document
  readTime : Option Timestamp

namespace QueryDocument

def path (d : QueryDocument) : Path := Path.ofString d.document.name

def updateTime (d : QueryDocument) : Option Timestamp := d.document.updateTime

def createTime (d : QueryDocument) : Option Timestamp := d.document.createTime

def get? (d : QueryDocument) (field : String) : Option Value := d.document.fields.lookup field

/-- Versions of a path differ when their update times do; an absent time equals only an absent one. -/
def sameVersion (d : QueryDocument) (e : Document) : Bool := d.updateTime == e.updateTime

/-- Equality of content, whichever snapshot the versions were read in. -/
def equal (d e : QueryDocument) : Bool := d.document.equal e.document

def debugText (d : QueryDocument) : String :=
  let time := match d.updateTime with
    | some t => "Some(" ++ t.debugText ++ ")"
    | none => "None"
  "QueryDocument \x7b path: " ++ d.path.debugText ++ ", update_time: " ++ time ++
    ", fields: " ++ toString d.document.fields.length ++ " \x7d"

end QueryDocument

end LiveQuery
