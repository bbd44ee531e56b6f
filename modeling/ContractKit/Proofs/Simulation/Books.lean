import ContractKit.Proofs.Simulation.Rules
import Mathlib

/-!
# Books of balances

Pools and tokens keep a book: a dictionary with a balance for each address, and a total.  Entries
of the book are set one at a time, so a movement between two addresses is two settings, and the
second sees what the first has left, also if the addresses are the same.
-/

namespace ContractKit.Simulation

open Source

/-- Balances by address, and a total. -/
structure Book where
  balances : Assoc String Int
  total : Int

namespace Book

/-- The balance of an address; zero if it has none. -/
def balance (b : Book) (k : String) : Int := (Assoc.get? k b.balances).getD 0

def sum (b : Book) : Int := (Assoc.values b.balances).sum

def put (b : Book) (k : String) (v : Int) : Book := { b with balances := Assoc.set k v b.balances }

/-- Adds an amount to a balance and to the total. -/
def credit (b : Book) (k : String) (amount : Int) : Book :=
  { b.put k (b.balance k + amount) with total := b.total + amount }

/-- Takes an amount from a balance and from the total. -/
def debit (b : Book) (k : String) (amount : Int) : Book :=
  { b.put k (b.balance k - amount) with total := b.total - amount }

/-- The book in which an amount has been taken from a balance. -/
def charge (b : Book) (k : String) (amount : Int) : Book := b.put k (b.balance k - amount)

/-- Moves an amount from one balance to another. -/
def transfer (b : Book) (k l : String) (amount : Int) : Book :=
  (b.charge k amount).put l ((b.charge k amount).balance l + amount)

theorem get?_of_balance_ne_zero {b : Book} {k : String} (h : b.balance k ≠ 0) :
    Assoc.get? k b.balances = some (b.balance k) := by
  rw [balance] at h ⊢
  cases hget : Assoc.get? k b.balances with
  | none => exact absurd (by rw [hget]; rfl) h
  | some v => rfl

/-! ## Sums -/

theorem sum_set (k : String) (v : Int) (t : Assoc String Int) :
    (Assoc.values (Assoc.set k v t)).sum =
      (Assoc.values t).sum - (Assoc.get? k t).getD 0 + v := by
  induction t with
  | nil => simp [Assoc.set, Assoc.values, Assoc.get?]
  | cons e rest ih =>
    obtain ⟨k', v'⟩ := e
    by_cases h : k' = k
    · simp [Assoc.set, Assoc.values, Assoc.get?, h, add_comm]
    · simp only [Assoc.values] at ih
      simp only [Assoc.set, Assoc.values, Assoc.get?, beq_iff_eq, h, if_false, List.map_cons,
        List.sum_cons, ih]
      omega

/-- Setting a balance changes the sum by the new balance less the old one. -/
theorem sum_put (b : Book) (k : String) (v : Int) :
    (b.put k v).sum = b.sum - b.balance k + v :=
  sum_set k v b.balances

/-! ## Soundness -/

/-- The total is the sum of the balances, and none of them is negative. -/
structure Sound (b : Book) : Prop where
  total_eq : b.total = b.sum
  nonneg : ∀ v ∈ Assoc.values b.balances, 0 ≤ v

theorem balance_nonneg {b : Book} (h : ∀ v ∈ Assoc.values b.balances, 0 ≤ v) (k : String) :
    0 ≤ b.balance k := by
  rw [balance]
  cases hget : Assoc.get? k b.balances with
  | none => exact le_rfl
  | some v => exact h v (List.mem_map_of_mem (f := Prod.snd) (Assoc.mem_of_get? hget))

theorem nonneg_put {b : Book} (h : ∀ v ∈ Assoc.values b.balances, 0 ≤ v) (k : String) {v : Int}
    (hv : 0 ≤ v) : ∀ v' ∈ Assoc.values (b.put k v).balances, 0 ≤ v' := by
  intro v' hv'
  obtain ⟨e, he, rfl⟩ := List.mem_map.mp hv'
  rcases Assoc.mem_set he with hold | rfl
  · exact h e.2 (List.mem_map_of_mem hold)
  · exact hv

namespace Sound

variable {b : Book} {k l : String} {amount : Int}

theorem balance_nonneg (h : b.Sound) (k : String) : 0 ≤ b.balance k :=
  Book.balance_nonneg h.nonneg k

theorem credit (h : b.Sound) (hamount : 0 ≤ amount) : (b.credit k amount).Sound where
  total_eq := by
    have hsum := sum_put b k (b.balance k + amount)
    have htotal := h.total_eq
    show b.total + amount = (b.put k (b.balance k + amount)).sum
    omega
  nonneg := nonneg_put h.nonneg k (by have := h.balance_nonneg k; omega)

/-- An amount that the balance covers can be taken, also a negative one. -/
theorem debit (h : b.Sound) (hamount : amount ≤ b.balance k) : (b.debit k amount).Sound where
  total_eq := by
    have hsum := sum_put b k (b.balance k - amount)
    have htotal := h.total_eq
    show b.total - amount = (b.put k (b.balance k - amount)).sum
    omega
  nonneg := nonneg_put h.nonneg k (by omega)

/-- What one setting takes the other gives back, whether or not the addresses are the same. -/
theorem transfer (h : b.Sound) (hpositive : 0 ≤ amount) (hamount : amount ≤ b.balance k) :
    (b.transfer k l amount).Sound where
  total_eq := by
    have htaken := sum_put b k (b.balance k - amount)
    have hgiven := sum_put (b.charge k amount) l ((b.charge k amount).balance l + amount)
    have htotal := h.total_eq
    show b.total = ((b.charge k amount).put l ((b.charge k amount).balance l + amount)).sum
    rw [charge] at hgiven ⊢
    omega
  nonneg := by
    have hcharged : (b.charge k amount).balances = (b.debit k amount).balances := rfl
    have hnonneg := (h.debit hamount).nonneg
    have hbalance := (h.debit hamount).balance_nonneg l
    rw [← hcharged] at hnonneg
    refine nonneg_put hnonneg l ?_
    have : (b.charge k amount).balance l = (b.debit k amount).balance l := rfl
    omega

end Sound

/-! ## Books in dictionaries -/

def rows (b : Book) : List (Datum × Datum) := b.balances.map fun e => (.text e.1, .int e.2)

theorem findKey_rows (b : Book) (k : String) :
    findKey (.text k) b.rows = (Assoc.get? k b.balances).map .int := by
  rw [rows]
  induction b.balances with
  | nil => rfl
  | cons e rest ih =>
    simp only [List.map_cons, findKey, sameKey_text, Assoc.get?]
    split
    · rfl
    · exact ih

theorem getD_findKey_rows (b : Book) (k : String) :
    (findKey (.text k) b.rows).getD (.int 0) = .int (b.balance k) := by
  rw [findKey_rows, balance]
  cases Assoc.get? k b.balances <;> rfl

theorem setKey_rows (b : Book) (k : String) (v : Int) :
    setKey (.text k) (.int v) b.rows = (b.put k v).rows := by
  rw [rows, rows, put]
  induction b.balances with
  | nil => rfl
  | cons e rest ih =>
    simp only [List.map_cons, setKey, sameKey_text, Assoc.set]
    split
    · rfl
    · rw [List.map_cons, ← ih]

end Book

variable {s : Setting} {m : Machine} {b : Book} {table key e : Expr} {cell : Nat} {k : String}

theorem Yields.balance (hs : Ordinary s) (htable : Yields s m table (.dict cell))
    (hrows : m.entries cell = b.rows) (hkey : Yields s m key (.text k)) :
    Yields s m (Simulation.lookUp table key) (.int (b.balance k)) := by
  have h := lookUp hs htable hkey rfl
  rwa [hrows, Book.getD_findKey_rows] at h

theorem runStmt_putsBalance {v : Int} (htable : Yields s m table (.dict cell))
    (hrows : m.entries cell = b.rows) (hkey : Yields s m key (.text k))
    (h : Yields s m e (.int v)) :
    runStmt s (putsIn table key e) m = .ok .next (m.setCell cell (.dict (b.put k v).rows)) := by
  rw [runStmt_putsIn htable hkey h, hrows, Book.setKey_rows]

theorem runStmt_updatesBalance {op : BinaryOp} {d : Datum} {v : Int}
    (htable : Yields s m table (.dict cell)) (hrows : m.entries cell = b.rows)
    (hkey : Yields s m key (.text k)) (hentry : b.balance k ≠ 0) (h : Yields s m e d)
    (hnew : update op (.int (b.balance k)) d m = .ok (.int v) m) :
    runStmt s (updatesIn table key op e) m =
      .ok .next (m.setCell cell (.dict (b.put k v).rows)) := by
  have hfound : findKey (.text k) (m.entries cell) = some (.int (b.balance k)) := by
    rw [hrows, Book.findKey_rows, Book.get?_of_balance_ne_zero hentry]
    rfl
  rw [runStmt_updatesIn htable hkey hfound h hnew, hrows, Book.setKey_rows]

/-! ## Books of instances -/

/-- An attribute of an instance is the sum of the balances under another one, and none of these is
negative. -/
def Covers (i : Instance) (total balances : String) : Prop :=
  ∃ (entries : List (Value × Value)) (amounts : List Int),
    i.attribute? balances = some (.dict entries) ∧
    entries.map Prod.snd = amounts.map Value.int ∧
    i.attribute? total = some (.int amounts.sum) ∧ ∀ a ∈ amounts, 0 ≤ a

/-- Whatever calls an instance has got, also ones that failed, the total covers the balances, and
a further call that fails changes nothing. -/
structure KeepsBook {κ : Type} (i : Instance) (request : κ → String × List Value)
    (total balances : String) : Prop where
  covers : ∀ calls : List κ, Covers (i.after (calls.map request)) total balances
  unchanged : ∀ (calls : List κ) (q : κ) (e : Failure),
    ((i.after (calls.map request)).call (request q).1 (request q).2).1 = .error e →
    SameAttributes (i.after (calls.map request))
      ((i.after (calls.map request)).call (request q).1 (request q).2).2

/-- The balances as an instance shows them. -/
def Book.shown (b : Book) : List (Value × Value) :=
  b.balances.map fun e => (.text (Text.pointsOf e.1), .int e.2)

theorem exists_depth (hcells : m.cells ≠ []) : ∃ depth, m.cells.length = depth + 1 :=
  Nat.exists_eq_succ_of_ne_zero (List.length_pos_iff.mpr hcells).ne'

theorem value_rows (hcells : m.cells ≠ []) (hrows : m.entries cell = b.rows) :
    m.value (.dict cell) = .dict b.shown := by
  obtain ⟨depth, hdepth⟩ := exists_depth hcells
  rw [Machine.value, hdepth, Machine.valueAt, hrows, Book.rows, List.map_map]
  rfl

theorem Covers.of_sound {i : Instance} {total balances : String} (h : b.Sound)
    (hbalances : Assoc.get? balances i.machine.attributes = some (.dict cell))
    (hrows : i.machine.entries cell = b.rows) (hcells : i.machine.cells ≠ [])
    (htotal : Assoc.get? total i.machine.attributes = some (.int b.total)) :
    Covers i total balances := by
  refine ⟨b.shown, Assoc.values b.balances, ?_, ?_, ?_, h.nonneg⟩
  · rw [Instance.attribute?, hbalances, Option.map_some, value_rows hcells hrows]
  · simp [Book.shown, Assoc.values, Function.comp_def]
  · rw [Instance.attribute?, htotal, h.total_eq]
    rfl

/-- What a call may do to a book: it keeps it sound, and if it fails it changes nothing. -/
def KeepsSound {σ : Type} (book : σ → Book) (x : σ) (answer : Except Failure Value)
    (y : σ) : Prop :=
  ((book x).Sound → (book y).Sound) ∧ ∀ e, answer = .error e → y = x

theorem KeepsSound.same {σ : Type} {book : σ → Book} {x : σ} {answer : Except Failure Value} :
    KeepsSound book x answer x :=
  ⟨id, fun _ _ => rfl⟩

theorem KeepsSound.of_ok {σ : Type} {book : σ → Book} {x y : σ} {v : Value}
    (h : (book x).Sound → (book y).Sound) : KeepsSound book x (.ok v) y :=
  ⟨h, nofun⟩

/-- Where the machine of every state has a book, and calls keep it sound, instances keep it. -/
theorem Conduct.keepsBook {σ κ : Type} (c : Conduct σ κ) (book : σ → Book)
    (hallows : ∀ {x q answer y}, c.Allows x q answer y → KeepsSound book x answer y)
    {total balances : String}
    (hbalances : ∀ x, Assoc.get? balances (c.machine x).attributes = some (.dict cell))
    (hrows : ∀ x, (c.machine x).entries cell = (book x).rows)
    (hcells : ∀ x, (c.machine x).cells ≠ [])
    (htotal : ∀ x, Assoc.get? total (c.machine x).attributes = some (.int (book x).total))
    {x : σ} (h : (book x).Sound) (locals : Assoc String Datum) :
    KeepsBook (c.holder x locals) c.request total balances := by
  have hafter := c.after_holder (P := fun y => (book y).Sound)
    (fun _ _ _ _ hstep => (hallows hstep).1) h locals
  refine ⟨fun calls => ?_, fun calls q e => ?_⟩
  · obtain ⟨y, left, hsound, hy⟩ := hafter calls
    rw [hy]
    exact .of_sound hsound (hbalances _) (hrows _) (hcells _) (htotal _)
  · obtain ⟨y, left, -, hy⟩ := hafter calls
    rw [hy]
    exact c.sameAttributes_of_error fun _ hstep => (hallows hstep).2 e rfl

end ContractKit.Simulation
