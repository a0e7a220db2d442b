import NodeSteward.Json.Decode
import NodeSteward.Text.Decimal

/-!
# Identifiers

Every stored record has a number of its own.  The numbers of different kinds of records are kept
apart by their types, so that the number of a link cannot stand where that of a node is wanted.
In texts an identifier shows its kind by a short tag, as in `wfvn_12`; a text may leave the tag
out, but the tag of another kind is an error.

The number of an identifier is an integer without bounds.  A text is read only if its number fits a
signed word of 64 bits; the counters that number new records go on without an end, because no store
lives to see the last word.
-/

namespace NodeSteward

/-- The kinds of stored records. -/
inductive IdKind where
  | workflow
  | version
  | node
  | link
  | channel
  deriving DecidableEq, Repr

namespace IdKind

/-- The tag in front of the number. -/
def tag : IdKind → String
  | .workflow => "wf"
  | .version => "wfv"
  | .node => "wfvn"
  | .link => "wfvnl"
  | .channel => "chan"

/-- How messages call an identifier of this kind. -/
def typeName : IdKind → String
  | .workflow => "WorkflowId"
  | .version => "WorkflowVersionId"
  | .node => "WorkflowVersionNodeId"
  | .link => "WorkflowVersionNodeLinkId"
  | .channel => "ChannelId"

end IdKind

/-- An identifier of a record of the given kind. -/
structure Id (kind : IdKind) where
  raw : Int
  deriving DecidableEq, Repr

abbrev WorkflowId := Id .workflow
abbrev VersionId := Id .version
abbrev NodeId := Id .node
abbrev LinkId := Id .link
abbrev ChannelId := Id .channel

/-- A text that is no identifier of the wanted kind. -/
structure IdError where
  kind : IdKind
  reason : Decimal.Fault
  deriving DecidableEq, Repr

namespace IdError

def message (error : IdError) : String :=
  "failed to parse " ++ error.kind.typeName ++ ": " ++ error.reason.message

end IdError

namespace Id

variable {kind : IdKind}

/-- What stands in front of the number in a text. -/
def mark (kind : IdKind) : List Char :=
  kind.tag.toList ++ ['_']

/-- The characters of an identifier. -/
def chars (id : Id kind) : List Char :=
  mark kind ++ Decimal.intChars id.raw

/-- The text of an identifier: its tag, an underscore and its number. -/
def text (id : Id kind) : String :=
  String.ofList id.chars

/-- What follows `front` in `input`, if `input` starts with it. -/
def afterFront? : List Char → List Char → Option (List Char)
  | [], input => some input
  | _ :: _, [] => none
  | expected :: front, c :: input => if c = expected then afterFront? front input else none

/-- The number of a text, after the tag of its own kind if that is there. -/
def ofChars (kind : IdKind) (input : List Char) : Except IdError (Id kind) :=
  match Decimal.readInt 0x8000000000000000 Decimal.maxInt64
    ((afterFront? (mark kind) input).getD input) with
  | .ok raw => .ok ⟨raw⟩
  | .error reason => .error ⟨kind, reason⟩

/-- Reads an identifier. -/
def ofText (kind : IdKind) (input : String) : Except IdError (Id kind) :=
  ofChars kind input.toList

def decode? (source : Source) : Option (Id kind) :=
  source.int64?.map Id.mk

def toJson (id : Id kind) : Json :=
  .ofInt id.raw

theorem ext_raw {first second : Id kind} (same : first.raw = second.raw) : first = second := by
  cases first
  cases second
  simp_all

end Id

end NodeSteward
