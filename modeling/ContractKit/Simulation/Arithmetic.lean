import ContractKit.Simulation.Datum

/-!
# Operations on data

Numbers mix: a truth value counts as zero or one, and an integer meets a floating-point
number as the double nearest to it.  Texts, bytes and lists add by concatenation and
multiply by repetition.  Everything else does not fit.
-/

namespace ContractKit.Simulation

/-- A number of either kind. -/
inductive Numeric where
  | int (value : Int)
  | float (value : Double)

def Datum.numeric? : Datum → Option Numeric
  | .bool b => some (.int (if b then 1 else 0))
  | .int n => some (.int n)
  | .float x => some (.float x)
  | _ => Option.none

/-- Order of two numbers by their exact values. -/
def Numeric.compare? : Numeric → Numeric → Option Ordering
  | .int a, .int b => some (compare a b)
  | .int a, .float y => ofExact (some (a, 1)) y
  | .float x, .int b => (ofExact (some (b, 1)) x).map Ordering.swap
  | .float x, .float y => x.compare? y
where
  /-- Order of an exact fraction and a double. -/
  ofExact (a : Option (Int × Nat)) (y : Double) : Option Ordering :=
    match a, y.signedRatio?, y with
    | some (n, d), some (n', d'), _ => some (compare (n * d') (n' * d))
    | _, _, .infinite negative => some (if negative then .gt else .lt)
    | _, _, _ => none

def Numeric.toDouble : Numeric → Sim Double
  | .float x => return x
  | .int n =>
    match Double.ofInt n with
    | .infinite _ => throw (.tooLarge "int too large to convert to float")
    | x => return x

/-- Whether two keys of a dictionary are the same.  Keys hold no references, so no cell is
needed to tell. -/
def Datum.sameKey (a b : Datum) : Bool :=
  match a.numeric?, b.numeric? with
  | some x, some y => x.compare? y == some .eq
  | _, _ => a == b

/-- Whether a datum can be a key: lists and dictionaries cannot. -/
def Datum.isKey : Datum → Bool
  | .list _ | .dict _ => false
  | _ => true

def findKey (key : Datum) : List (Datum × Datum) → Option Datum
  | [] => none
  | (k, v) :: rest => if k.sameKey key then some v else findKey key rest

/-- Sets a key: in its place if it is there, at the end otherwise. -/
def setKey (key value : Datum) : List (Datum × Datum) → List (Datum × Datum)
  | [] => [(key, value)]
  | (k, v) :: rest =>
    if k.sameKey key then (k, value) :: rest else (k, v) :: setKey key value rest

namespace Machine

/-- Whether two data are equal; references are followed as deep as `depth`. -/
def equalAt (m : Machine) : (depth : Nat) → Datum → Datum → Bool
  | 0, _, _ => false
  | depth + 1, a, b =>
    match a, b with
    | .list i, .list j =>
      i == j || ((m.items i).length == (m.items j).length &&
        ((m.items i).zip (m.items j)).all fun p => equalAt m depth p.1 p.2)
    | .dict i, .dict j =>
      i == j || ((m.entries i).length == (m.entries j).length &&
        (m.entries i).all fun e =>
          match findKey e.1 (m.entries j) with
          | some v => equalAt m depth e.2 v
          | none => false)
    | a, b => a.sameKey b

/-- Whether two data are equal. -/
def equal (m : Machine) (a b : Datum) : Bool := m.equalAt (m.cells.length + 2) a b

end Machine

def Machine.isTrue (m : Machine) : Datum → Bool
  | .none => false
  | .bool b => b
  | .int n => n != 0
  | .float x => !x.isZero
  | .text s => s != ""
  | .bytes b => !b.isEmpty
  | .list cell => !(m.items cell).isEmpty
  | .dict cell => !(m.entries cell).isEmpty
  | _ => true

/-- The greatest integer that is not above a double, as a double. -/
def floorDouble (x : Double) : Double :=
  match x.signedRatio? with
  | some (n, d) => .ofInt (Int.fdiv n d)
  | none => x

/-- The quotient of two doubles rounded down, the divisor not zero.  It is computed in
doubles: the exact remainder is taken away first, and a quotient that rounding has brought
near the next integer goes there. -/
def floorQuotient (x y : Double) : Double :=
  let zero : Double := .finite (x.isNegative != y.isNegative) 0 0
  match x.signedRatio?, y.signedRatio? with
  | some (n, d), some (n', d') =>
    let rest := Int.tmod (n * d') (n' * d)
    let quotient := (x.sub (.ofRatio x.isNegative rest.natAbs (d * d'))).div y
    let quotient :=
      if rest ≠ 0 ∧ (rest < 0) ≠ (n' < 0) then quotient.sub (.ofInt 1) else quotient
    if quotient.isZero then zero
    else
      let below := floorDouble quotient
      if (quotient.sub below).compare? (.ofRatio false 1 2) == some .gt then below.add (.ofInt 1)
      else below
  | some (n, _), none =>
    match y with
    | .infinite negative => if n = 0 || (n < 0) == negative then zero else .ofInt (-1)
    | _ => .nan
  | none, _ => .nan

def repeated {α : Type} (items : List α) (count : Int) : List α :=
  (List.replicate count.toNat items).flatten

def addNumbers : Numeric → Numeric → Sim Datum
  | .int a, .int b => return .int (a + b)
  | x, y => do return .float ((← x.toDouble).add (← y.toDouble))

def subNumbers : Numeric → Numeric → Sim Datum
  | .int a, .int b => return .int (a - b)
  | x, y => do return .float ((← x.toDouble).sub (← y.toDouble))

def mulNumbers : Numeric → Numeric → Sim Datum
  | .int a, .int b => return .int (a * b)
  | x, y => do return .float ((← x.toDouble).mul (← y.toDouble))

/-- The quotient of two numbers, rounded down. -/
def floorDivNumbers : Numeric → Numeric → Sim Datum
  | .int a, .int b =>
    if b = 0 then throw (.zeroDivision "integer division or modulo by zero")
    else return .int (Int.fdiv a b)
  | x, y => do
    let x ← x.toDouble
    let y ← y.toDouble
    if y.isZero then throw (.zeroDivision "float floor division by zero")
    else return .float (floorQuotient x y)

def addData (a b : Datum) : Sim Datum :=
  match a.numeric?, b.numeric? with
  | some x, some y => addNumbers x y
  | _, _ =>
    match a, b with
    | .text s, .text t => return .text (s ++ t)
    | .bytes s, .bytes t => return .bytes (s ++ t)
    | .list i, .list j => do
      let m ← get
      return .list (← allocate (.list (m.items i ++ m.items j)))
    | _, _ => throw .mismatch

def Datum.isSequence : Datum → Bool
  | .text _ | .bytes _ | .list _ => true
  | _ => false

/-- Whether an integer is small enough to be an index. -/
def isIndexSized (i : Int) : Bool := decide (-(Nat.pow 2 63 : Int) ≤ i ∧ i < Nat.pow 2 63)

/-- The words for an index that is too large for any sequence. -/
def unfitIndex : String := "cannot fit 'int' into an index-sized integer"

/-- The product of a sequence and a count. -/
def repeatData (a : Datum) (count : Int) : Sim Datum := do
  if a.isSequence && !isIndexSized count then throw (.tooLarge unfitIndex)
  match a with
  | .text s => return .text (String.ofList (repeated s.toList count))
  | .bytes s => return .bytes (repeated s count)
  | .list i => do
    let m ← get
    return .list (← allocate (.list (repeated (m.items i) count)))
  | _ => throw .mismatch

def mulData (a b : Datum) : Sim Datum :=
  match a.numeric?, b.numeric? with
  | some x, some y => mulNumbers x y
  | none, some (.int n) => repeatData a n
  | some (.int n), none => repeatData b n
  | _, _ => throw .mismatch

/-- What a binary operator makes of two data. -/
def combine (op : Source.BinaryOp) (a b : Datum) : Sim Datum :=
  match op with
  | .add => addData a b
  | .mult => mulData a b
  | .sub =>
    match a.numeric?, b.numeric? with
    | some x, some y => subNumbers x y
    | _, _ => throw .mismatch
  | .floorDiv =>
    match a.numeric?, b.numeric? with
    | some x, some y => floorDivNumbers x y
    | _, _ => throw .mismatch
  | _ => throw .unsupported

/-- Order of two lists item by item, where an order on items may be missing. -/
def orderItems (m : Machine) (order : Datum → Datum → Option (Option Ordering)) :
    List Datum → List Datum → Option (Option Ordering)
  | [], [] => some (some .eq)
  | [], _ :: _ => some (some .lt)
  | _ :: _, [] => some (some .gt)
  | a :: as, b :: bs => if m.equal a b then orderItems m order as bs else order a b

/-- Order of two data: `none` if they cannot be compared, `some none` if neither comes
first. -/
def orderAt (m : Machine) : (depth : Nat) → Datum → Datum → Option (Option Ordering)
  | 0, _, _ => none
  | depth + 1, a, b =>
    match a.numeric?, b.numeric? with
    | some x, some y => some (x.compare? y)
    | _, _ =>
      match a, b with
      | .text s, .text t =>
        some (some (if s = t then .eq else if s < t then .lt else .gt))
      | .bytes s, .bytes t =>
        orderItems m (orderAt m depth) (s.map fun x => .int x.toNat) (t.map fun x => .int x.toNat)
      | .list i, .list j => orderItems m (orderAt m depth) (m.items i) (m.items j)
      | _, _ => none

/-- Whether one run of items stands somewhere in another. -/
def occursIn {α : Type} [BEq α] (part : List α) : List α → Bool
  | [] => part.isEmpty
  | x :: xs => part.isPrefixOf (x :: xs) || occursIn part xs

def contains (item collection : Datum) : Sim Bool := do
  let m ← get
  match collection with
  | .list cell => return (m.items cell).any fun x => m.equal x item
  | .dict cell =>
    if item.isKey then return (findKey item (m.entries cell)).isSome else throw .mismatch
  | .text s =>
    match item with
    | .text t => return occursIn t.toList s.toList
    | _ => throw .mismatch
  | .bytes s =>
    match item, item.numeric? with
    | .bytes t, _ => return occursIn t s
    | _, some (.int n) =>
      if 0 ≤ n ∧ n < 256 then return s.any fun b => (b.toNat : Int) == n else throw .notAByte
    | _, _ => throw .mismatch
  | _ => throw .mismatch

/-- Whether two data are in an order. -/
def ordered (accepts : Ordering → Bool) (a b : Datum) : Sim Bool := do
  let m ← get
  match orderAt m (m.cells.length + 2) a b with
  | some (some o) => return accepts o
  | some none => return false
  | none => throw .mismatch

def relate (op : Source.CompareOp) (a b : Datum) : Sim Bool :=
  match op with
  | .eq => do return (← get).equal a b
  | .notEq => do return !(← get).equal a b
  | .lt => ordered (· == .lt) a b
  | .ltE => ordered (· != .gt) a b
  | .gt => ordered (· == .gt) a b
  | .gtE => ordered (· != .lt) a b
  | .is => return a == b
  | .isNot => return a != b
  | .isIn => contains a b
  | .notIn => do return !(← contains a b)

/-- The place that an index means in a sequence of a length; negative ones count from the
end. -/
def place? (length : Nat) (index : Int) : Option Nat :=
  let i := if index < 0 then index + length else index
  if 0 ≤ i ∧ i < length then some i.toNat else none

/-- The element of a sequence at an index. -/
def itemAt {α : Type} (items : List α) (index : Datum) (outside : String) : Sim α :=
  match index.numeric? with
  | some (.int i) =>
    match (place? items.length i).bind fun k => items[k]? with
    | some x => return x
    | none => throw (.outOfRange (if isIndexSized i then outside else unfitIndex))
  | _ => throw .mismatch

/-- The element of a collection at an index or key. -/
def getItem (collection index : Datum) : Sim Datum := do
  let m ← get
  match collection with
  | .dict cell =>
    if index.isKey then
      match findKey index (m.entries cell) with
      | some v => return v
      | none => throw (.missingKey (m.shown index))
    else throw .mismatch
  | .list cell => itemAt (m.items cell) index "list index out of range"
  | .text s =>
    return .text (String.singleton (← itemAt s.toList index "string index out of range"))
  | .bytes b => return .int (← itemAt b index "index out of range").toNat
  | _ => throw .mismatch

/-- Changes the element of a collection at an index or key. -/
def setItem (collection index value : Datum) : Sim Unit := do
  let m ← get
  match collection with
  | .dict cell =>
    if index.isKey then set (m.setCell cell (.dict (setKey index value (m.entries cell))))
    else throw .mismatch
  | .list cell =>
    match index.numeric? with
    | some (.int i) =>
      match place? (m.items cell).length i with
      | some k => set (m.setCell cell (.list ((m.items cell).set k value)))
      | none =>
        throw (.outOfRange
          (if isIndexSized i then "list assignment index out of range" else unfitIndex))
    | _ => throw .mismatch
  | collection =>
    match collection.isSequence, index.numeric? with
    | true, some (.int i) => throw (if isIndexSized i then .mismatch else .outOfRange unfitIndex)
    | _, _ => throw .mismatch

/-- The elements that a loop over a collection goes through. -/
def elements (collection : Datum) : Sim (List Datum) := do
  let m ← get
  match collection with
  | .list cell => return m.items cell
  | .dict cell => return (m.entries cell).map Prod.fst
  | .text s => return s.toList.map fun c => .text (String.singleton c)
  | .bytes b => return b.map fun x => .int x.toNat
  | _ => throw .mismatch

end ContractKit.Simulation
