import ModelMapper.Query.Node

/-! # Errors

Everything the mapper can report.

* `QueryFault` — why a query, a write or a relation is not a valid request.
* `Error` — a failure of a backend with the failure behind it, or a fault of the request.
* `Error.message` — the one place where errors become text.
-/

namespace ModelMapper

/-- Why a request cannot be put into a command or carried out. -/
inductive QueryFault where
  /-- Both sides of an operator that takes a list or a text are fields. -/
  | fieldsUnder (op : Operator) (left right : FieldRef)
  | fieldOnRight (op : Operator) (field : FieldRef)
  | literalsOnly (left : Value) (op : Operator) (right : Value)
  | notOperands
  /-- A literal stands where the builder has an operator of its own for lists. -/
  | literalForList (op : Operator) (left : FieldRef)
  | unknownField (model field : String)
  | emptyNegation
  | literalAlone (v : Value)
  | fieldAlone (r : FieldRef)
  | nullOperand (op : Operator) (left : FieldRef)
  | textExpected (left : FieldRef) (typeName : String)
  | listExpected (op : Operator) (left : FieldRef)
  | fieldOperand (op : Operator)
  | listUnexpected (op : Operator) (left : FieldRef)
  | noAssignments
  | noValues
  | noKeyFields (model : String)
  | keyUnset (model field : String)
  | unboundRelation
  | noReference (model target : String)
  /-- A fault worded by the caller. -/
  | stated (message : String)
deriving DecidableEq, Inhabited

def QueryFault.message : QueryFault → String
  | fieldsUnder op l r =>
    "'" ++ op.symbol ++ "' cannot compare two fields (" ++ l.display ++ " and " ++ r.display ++ ")"
  | fieldOnRight op r => "'" ++ op.symbol ++ "' needs the field on the left of " ++ r.display
  | literalsOnly a op b =>
    "comparison between two literals (" ++ a.display ++ " " ++ op.symbol ++ " " ++ b.display ++
      ") has no field reference"
  | notOperands => "comparison operands must be field references or literals"
  | literalForList op l =>
    "'" ++ op.symbol ++ "' on " ++ l.display ++ " needs a collection, use is_in/not_in"
  | unknownField model field => model ++ " has no field '" ++ field ++ "'"
  | emptyNegation => "negation of nothing"
  | literalAlone v => "literal " ++ v.display ++ " is not a predicate"
  | fieldAlone r => "field " ++ r.display ++ " is not a predicate on its own"
  | nullOperand op l => "cannot apply '" ++ op.symbol ++ "' to NULL on " ++ l.display
  | textExpected l typeName => "contains on " ++ l.display ++ " needs text, got " ++ typeName
  | listExpected op l => "'" ++ op.symbol ++ "' on " ++ l.display ++ " needs a collection"
  | fieldOperand op => "'" ++ op.symbol ++ "' cannot compare two fields"
  | listUnexpected op l =>
    "'" ++ op.symbol ++ "' on " ++ l.display ++ " does not take a collection"
  | noAssignments => "update without any field values"
  | noValues => "update with no values"
  | noKeyFields model => model ++ " has no key fields"
  | keyUnset model field => model ++ "." ++ field ++ " is not set"
  | unboundRelation => "relationship field is not bound to a database"
  | noReference model target => model ++ " declares no reference to " ++ target
  | stated message => message

/-- The parts of the mapper and its backends that fail with a text of their own. -/
inductive Origin where
  | connection
  | query
  | constraint
  | transaction
  | schema
  | internal
deriving DecidableEq, Repr, Inhabited

/-- A failure. A failure with an origin keeps the failure behind it, if there is one. -/
inductive Error where
  | raised (origin : Origin) (message : String) (source : Option Error)
  | invalidQuery (fault : QueryFault)
  | crossModelQuery (expected found : String)
  | noResult (model : String)
deriving Inhabited

/-- The kinds of failure callers branch on. -/
inductive ErrorKind where
  | raised (origin : Origin)
  | invalidQuery
  | crossModelQuery
  | noResult
deriving DecidableEq, Repr, Inhabited

namespace ErrorKind

def name : ErrorKind → String
  | raised .connection => "Connection"
  | raised .query => "Query"
  | raised .constraint => "Constraint"
  | raised .transaction => "Transaction"
  | raised .schema => "Schema"
  | raised .internal => "Internal"
  | invalidQuery => "InvalidQuery"
  | crossModelQuery => "CrossModelQuery"
  | noResult => "NoResult"

def title : ErrorKind → String
  | raised .connection => "Connection Error"
  | raised .query => "Query Error"
  | raised .constraint => "Constraint Error"
  | raised .transaction => "Transaction Error"
  | raised .schema => "Schema Error"
  | raised .internal => "Internal Error"
  | invalidQuery => "Invalid Query"
  | crossModelQuery => "Cross-Model Query"
  | noResult => "No Result"

def all : List ErrorKind :=
  [raised .connection, raised .query, raised .constraint, raised .transaction, invalidQuery,
    crossModelQuery, noResult, raised .schema, raised .internal]

def ofName? (name : String) : Option ErrorKind := all.find? fun k => k.name == name

end ErrorKind

namespace Error

def kind : Error → ErrorKind
  | raised origin _ _ => .raised origin
  | invalidQuery _ => .invalidQuery
  | crossModelQuery _ _ => .crossModelQuery
  | noResult _ => .noResult

def source? : Error → Option Error
  | raised _ _ source => source
  | _ => none

def chain : Error → List Error
  | raised _ _ (some e) => e :: chain e
  | _ => []

def heading : Origin → String
  | .connection => "connection error: "
  | .query => "query error: "
  | .constraint => "constraint violated: "
  | .transaction => "transaction error: "
  | .schema => "schema error: "
  | .internal => "internal error: "

def message : Error → String
  | raised origin text _ => heading origin ++ text
  | invalidQuery fault => "invalid query: " ++ fault.message
  | crossModelQuery expected found =>
    "query on " ++ expected ++ " references fields of " ++ found
  | noResult model => "no " ++ model ++ " matched the query"

def connection (message : String) : Error := raised .connection message none

def query (message : String) : Error := raised .query message none

def constraint (message : String) : Error := raised .constraint message none

def transaction (message : String) : Error := raised .transaction message none

def schema (message : String) : Error := raised .schema message none

def internal (message : String) : Error := raised .internal message none

/-- A failure of a kind, by its text alone. -/
def ofKind (kind : ErrorKind) (message : String) (source : Option Error) : Error :=
  match kind with
  | .raised origin => raised origin message source
  | .invalidQuery => invalidQuery (.stated message)
  | .crossModelQuery => crossModelQuery message ""
  | .noResult => noResult message

/-- A failure of a kind with the failure behind it, where the kind keeps one. -/
def withSource (kind : ErrorKind) (message : String) (source : Error) : Error :=
  ofKind kind message (some source)

/-- The failure as one of the given origin: itself if it has that origin, else a new one
    with this one behind it. -/
def into (origin : Origin) (message : String) (e : Error) : Error :=
  if e.kind = .raised origin then e else raised origin message (some e)

def intoTransaction (e : Error) (message : String) : Error := e.into .transaction message

def intoSchema (e : Error) (message : String) : Error := e.into .schema message

end Error

abbrev Result (α : Type) := Except Error α

namespace Result

variable {α β : Type}

def isSuccess : Result α → Bool
  | .ok _ => true
  | .error _ => false

def error? : Result α → Option Error
  | .ok _ => none
  | .error e => some e

def valueOr (r : Result α) (default : α) : α :=
  match r with
  | .ok a => a
  | .error _ => default

def valueOrElse (r : Result α) (recover : Error → α) : α :=
  match r with
  | .ok a => a
  | .error e => recover e

end Result

end ModelMapper
