import ContractKit.Simulation.Arithmetic

/-!
# Running expressions and statements

Expressions are evaluated and statements are run by recursion on the tree.  What a call
does, and what attributes the contract has beside the ones that were set, is left open
here: a `Setting` says it.
-/

namespace ContractKit.Simulation

open Source

/-- What evaluation takes from the contract. -/
structure Setting where
  /-- The attribute of a name that the contract has by its class. -/
  classAttribute? : String → Option Datum
  /-- The result of a call. -/
  apply : Datum → List Datum → Sim Datum

/-- How a statement ends. -/
inductive Flow where
  | next
  | leave
  | again
  | done (result : Datum)
  deriving DecidableEq, Repr, Inhabited

def ofLiteral : Literal → Sim Datum
  | .none => return .none
  | .bool b => return .bool b
  | .int n => return .int n
  | .float x => return .float x
  | .text s => return .text (Text.Points.toString s)
  | .bytes b => return .bytes b
  | _ => throw .unsupported

/-- An attribute of the contract: one that was set, else one of its class. -/
def contractAttribute (s : Setting) (field : String) : Sim Datum := do
  match Assoc.get? field (← get).attributes with
  | some d => return d
  | none =>
    match s.classAttribute? field with
    | some d => return d
    | none => throw .noAttribute

def getAttribute (s : Setting) (d : Datum) (field : String) : Sim Datum :=
  match d with
  | .contract => contractAttribute s field
  | .base => if field = "__init__" then return .operation .construct else throw .noAttribute
  | .dict cell => if field = "get" then return .lookupIn cell else throw .noAttribute
  | .list cell => if field = "append" then return .appendTo cell else throw .noAttribute
  | _ => throw .noAttribute

/-- Sets an attribute of the contract; nothing else has attributes that can be set. -/
def setAttribute (d : Datum) (field : String) (value : Datum) : Sim Unit :=
  match d with
  | .contract => modify fun m => { m with attributes := Assoc.set field value m.attributes }
  | _ => throw .noAttribute

def getLocal (x : String) : Sim Datum := do
  match Assoc.get? x (← get).locals with
  | some d => return d
  | none => throw (.unbound x)

def setLocal (x : String) (value : Datum) : Sim Unit :=
  modify fun m => { m with locals := Assoc.set x value m.locals }

/-- What a unary operator makes of a datum. -/
def negateOrNot (op : UnaryOp) (d : Datum) : Sim Datum :=
  match op, d.numeric? with
  | .not, _ => do return .bool (!(← get).isTrue d)
  | .minus, some (.int n) => return .int (-n)
  | .minus, some (.float x) => return .float x.neg
  | .plus, some (.int n) => return .int n
  | .plus, some (.float x) => return .float x
  | .invert, some (.int n) => return .int (-n - 1)
  | _, _ => throw .mismatch

mutual

def evaluate (s : Setting) : Expr → Sim Datum
  | .literal v => ofLiteral v
  | .name x => getLocal x
  | .attribute e field => do getAttribute s (← evaluate s e) field
  | .subscript e index => do
    let d ← evaluate s e
    getItem d (← evaluate s index)
  | .binary left op right => do
    let a ← evaluate s left
    combine op a (← evaluate s right)
  | .compare left op right more => do
    let a ← evaluate s left
    let b ← evaluate s right
    if ← relate op a b then evaluateChain s b more else return .bool false
  | .unary op e => do negateOrNot op (← evaluate s e)
  | .boolOp op es => evaluateConnective s op es
  | .conditional test body orelse => do
    if (← get).isTrue (← evaluate s test) then evaluate s body else evaluate s orelse
  | .call (.name "super") [] [] => return .base
  | .call function args [] => do
    let f ← evaluate s function
    s.apply f (← evaluateAll s args)
  | .list es => do
    let items ← evaluateAll s es
    return .list (← allocate (.list items))
  | .dict entries => do
    let pairs ← evaluateEntries s entries
    return .dict (← allocate (.dict pairs))
  | _ => throw .unsupported

/-- The values of expressions, in order. -/
def evaluateAll (s : Setting) : List Expr → Sim (List Datum)
  | [] => return []
  | e :: es => do
    let d ← evaluate s e
    return d :: (← evaluateAll s es)

/-- Whether a chain of comparisons holds, from the value that stands before it. -/
def evaluateChain (s : Setting) (a : Datum) : List (CompareOp × Expr) → Sim Datum
  | [] => return .bool true
  | (op, e) :: more => do
    let b ← evaluate s e
    if ← relate op a b then evaluateChain s b more else return .bool false

/-- The operand that decides a connective. -/
def evaluateConnective (s : Setting) (op : BoolOp) : List Expr → Sim Datum
  | [] => return .none
  | e :: es => do
    let d ← evaluate s e
    if es.isEmpty || (← get).isTrue d == (op == .or) then return d
    else evaluateConnective s op es

def evaluateEntries (s : Setting) : List (Option Expr × Expr) → Sim (List (Datum × Datum))
  | [] => return []
  | (some k, v) :: rest => do
    let key ← evaluate s k
    let value ← evaluate s v
    if key.isKey then
      return (← evaluateEntries s rest).foldl (fun t e => setKey e.1 e.2 t) [(key, value)]
    else throw .mismatch
  | (none, _) :: _ => throw .unsupported

end

def assign (s : Setting) (value : Datum) : Expr → Sim Unit
  | .name x => setLocal x value
  | .attribute e field => do setAttribute (← evaluate s e) field value
  | .subscript e index => do
    let d ← evaluate s e
    setItem d (← evaluate s index) value
  | _ => throw .unsupported

/-- Gives several targets one value, from left to right. -/
def assignAll (s : Setting) (value : Datum) : List Expr → Sim Unit
  | [] => return ()
  | t :: ts => do
    assign s value t
    assignAll s value ts

/-- What an operator makes of the old value of a target.  A list that is added to stays the
same list. -/
def update (op : BinaryOp) (old value : Datum) : Sim Datum :=
  match op, old with
  | .add, .list cell => do
    let more ← elements value
    let m ← get
    set (m.setCell cell (.list (m.items cell ++ more)))
    return old
  | op, old => combine op old value

/-- Updates a target by an operator and the value of an expression. -/
def assignUpdated (s : Setting) (op : BinaryOp) (e : Expr) : Expr → Sim Unit
  | .name x => do
    let old ← getLocal x
    setLocal x (← update op old (← evaluate s e))
  | .attribute target field => do
    let d ← evaluate s target
    let old ← getAttribute s d field
    setAttribute d field (← update op old (← evaluate s e))
  | .subscript target index => do
    let d ← evaluate s target
    let i ← evaluate s index
    let old ← getItem d i
    setItem d i (← update op old (← evaluate s e))
  | _ => throw .unsupported

/-- Runs a step for each element until one ends the loop. -/
def iterate (step : Datum → Sim Flow) : List Datum → Sim Flow
  | [] => return .next
  | d :: ds => do
    match ← step d with
    | .next | .again => iterate step ds
    | .leave => return .leave
    | .done r => return .done r

mutual

def runStmt (s : Setting) : Stmt → Sim Flow
  | .expression e => do
    let _ ← evaluate s e
    return .next
  | .assign targets e => do
    assignAll s (← evaluate s e) targets
    return .next
  | .annAssign target _ (some e) => do
    assign s (← evaluate s e) target
    return .next
  | .annAssign _ _ none => return .next
  | .augAssign target op e => do
    assignUpdated s op e target
    return .next
  | .ret none => return .done .none
  | .ret (some e) => do return .done (← evaluate s e)
  | .ifThen test body orelse => do
    if (← get).isTrue (← evaluate s test) then runBlock s body else runBlock s orelse
  | .forLoop false target e body orelse => do
    let items ← elements (← evaluate s e)
    let flow ← iterate (fun d => do assign s d target; runBlock s body) items
    match flow with
    | .next | .again => runBlock s orelse
    | .leave => return .next
    | .done r => return .done r
  | .raise (some (.call (.name "Exception") args [])) none => do
    match ← evaluateAll s args with
    | [] => throw (.raised "")
    | [d] => throw (.raised ((← get).asText d))
    | _ => throw .unsupported
  | .pass => return .next
  | .break => return .leave
  | .continue => return .again
  | _ => throw .unsupported

/-- Runs statements in order until one leaves. -/
def runBlock (s : Setting) : List Stmt → Sim Flow
  | [] => return .next
  | stmt :: rest => do
    match ← runStmt s stmt with
    | .next => runBlock s rest
    | flow => return flow

end

end ContractKit.Simulation
