import ContractKit.Proofs.Simulation.Collections
import ContractKit.Proofs.Source.SameTree
import ContractKit.Samples
import Mathlib

/-!
# Voting is sound

The voting contract keeps a list of candidates, a table with the number of votes for each, and a
table in which those are marked who have voted.  Its three actions change more than one of them at a
time, and each checks all that it needs before it changes anything.  So the three stay in step,
also when calls fail.

The winner is found by a loop over the candidates that starts from an empty name with less than no
votes and takes a candidate over only if it has more votes than the best one so far.
-/

namespace ContractKit.Samples

open Source Simulation

namespace Voting

/-! ## The source -/

def candidates : Expr := field "candidates"

def voteCounts : Expr := field "vote_counts"

def hasVoted : Expr := field "has_voted"

/-- Refuses everybody but the administrator. -/
def onlyAdmin (message : String) : Stmt :=
  refuses (.compare (.name "sender") .notEq (field "admin") []) message

def addCandidateBody : List Stmt :=
  [lets "sender" (ask "msg_sender" []),
   onlyAdmin "Only admin can add candidates!",
   refuses (.compare (.name "name") .isIn candidates []) "Candidate already exists!",
   appends candidates (.name "name"),
   putsIn voteCounts (.name "name") (number 0),
   emits "CandidateAdded" [.name "name"]]

def voteBody : List Stmt :=
  [lets "sender" (ask "msg_sender" []),
   refuses (negated (field "voting_open")) "Voting is closed!",
   refuses (lookUpOr hasVoted (.name "sender") (truth false)) "You already voted!",
   refuses (.compare (.name "candidate_name") .notIn candidates []) "Candidate does not exist!",
   updatesIn voteCounts (.name "candidate_name") .add (number 1),
   putsIn hasVoted (.name "sender") (truth true),
   emits "VoteCast" [.name "sender", .name "candidate_name"]]

/-- What is done for each candidate. -/
def turnBody : List Stmt :=
  [lets "votes" (lookUp voteCounts (.name "candidate")),
   whenever (.compare (.name "votes") .gt (.name "max_votes") [])
    [lets "max_votes" (.name "votes"), lets "winner" (.name "candidate")]]

def getWinnerBody : List Stmt :=
  [whenever (negated candidates) [.ret (some (words "No candidates"))],
   lets "winner" (words ""),
   lets "max_votes" (negative 1),
   loops "candidate" candidates turnBody,
   .ret (some (.name "winner"))]

def closeVotingBody : List Stmt :=
  [lets "sender" (ask "msg_sender" []),
   onlyAdmin "Only admin can close voting!",
   puts "voting_open" (truth false),
   emits "VotingClosed" []]

def constructorBody : List Stmt :=
  [baseSetup, declares "admin" (ask "msg_sender" []), declares "voting_open" (truth true),
   declares "candidates" (.list []), declares "vote_counts" (.dict []),
   declares "has_voted" (.dict [])]

def classBody : List Stmt :=
  [constructor constructorBody,
   action "add_candidate" [("name", "str")] addCandidateBody,
   action "vote" [("candidate_name", "str")] voteBody,
   getter "get_candidates" "list" "candidates",
   view "get_vote_count" [("candidate_name", "str")] "int"
    [.ret (some (lookUp voteCounts (.name "candidate_name")))],
   view "get_winner" [] "str" getWinnerBody,
   getter "is_voting_open" "bool" "voting_open",
   view "did_vote" [("voter", "str")] "bool"
    [.ret (some (lookUpOr hasVoted (.name "voter") (truth false)))],
   action "close_voting" [] closeVotingBody]

theorem read_source : readStatements voting = some [contract "VotingContract" classBody] :=
  readStatements_lines (by repeat constructor) (by decide +kernel)

def votingClass : Simulation.Class := .ofBody classBody

theorem class_voting : Sample.class? ⟨"VotingContract", voting⟩ = some votingClass :=
  Class.ofSource?_contract read_source

theorem ordinary : Ordinary votingClass.methodSetting :=
  ⟨rfl, rfl, rfl, rfl, fun _ _ => rfl, fun _ _ _ => rfl⟩

/-! ## States -/

/-- The machine of an instance with the contents of its three containers. -/
def machineOf (isOpen : Bool) (names : List Datum) (counts marks : List (Datum × Datum))
    (locals : Assoc String Datum) : Machine where
  cells := (declaring [("admin", .text senderAddress), ("voting_open", .bool true),
    ("candidates", .list 2), ("vote_counts", .dict 3), ("has_voted", .dict 4)]
    [.list names, .dict counts, .dict marks]).cells
  attributes := [("_state", .dict 0), ("_storage_slots", .dict 1), ("_slot_counter", .int 5),
    ("admin", .text senderAddress), ("voting_open", .bool isOpen), ("candidates", .list 2),
    ("vote_counts", .dict 3), ("has_voted", .dict 4)]
  locals := locals

/-- The state of an election: whether votes are taken, the candidates with their votes, and who has
voted. -/
structure Election where
  isOpen : Bool
  counts : Assoc String Int
  voters : List String

namespace Election

/-- The candidates in the order in which they were added. -/
def names (e : Election) : List String := Assoc.keys e.counts

/-- The votes as a book whose total is the number of those who have voted. -/
def book (e : Election) : Book := ⟨e.counts, e.voters.length⟩

/-- The election with another candidate. -/
def add (e : Election) (name : String) : Election := { e with counts := Assoc.set name 0 e.counts }

/-- The election with another vote. -/
def cast (e : Election) (name : String) : Election :=
  { e with
    counts := Assoc.set name (e.book.balance name + 1) e.counts
    voters := e.voters ++ [senderAddress] }

/-- The election in which no more votes are taken. -/
def close (e : Election) : Election := { e with isOpen := false }

/-- The machine of an election, with the locals of the running call. -/
def machine (e : Election) (locals : Assoc String Datum) : Machine :=
  machineOf e.isOpen (e.names.map .text) e.book.rows (marksOf e.voters) locals

/-- An election without candidates. -/
def fresh : Election := ⟨true, [], []⟩

variable {e : Election} {k : String}

theorem names_add (hk : k ∉ e.names) : (e.add k).names = e.names ++ [k] := by
  rw [names, add, Assoc.set_of_not_mem_keys hk]
  simp [Assoc.keys, names]

theorem names_cast (hk : k ∈ e.names) : (e.cast k).names = e.names :=
  Assoc.keys_set_of_has (Assoc.has_iff_mem_keys.mpr hk) _

end Election

theorem instantiate_voting :
    votingClass.instantiate = (.ok (), ⟨votingClass, Election.fresh.machine []⟩) :=
  Class.instantiate_eq (m := Election.fresh.machine started.locals) rfl rfl
    (by decide +kernel)

/-! ## What the actions keep -/

/-- No candidate is there twice, nobody has voted twice, and the votes are not negative and as many
as those who have voted. -/
structure Election.Fair (e : Election) : Prop where
  distinct : e.names.Nodup
  once : e.voters.Nodup
  sound : e.book.Sound

namespace Election.Fair

variable {e : Election} {k : String}

theorem add (h : e.Fair) (hk : k ∉ e.names) : (e.add k).Fair where
  distinct := by
    rw [names_add hk, ← List.concat_eq_append]
    exact h.distinct.concat hk
  once := h.once
  sound := by
    have hnone : e.book.balance k = 0 := by
      rw [Book.balance, show e.book.balances = e.counts from rfl,
        Assoc.get?_eq_none_of_not_mem_keys hk]
      rfl
    have hsum := Book.sum_put e.book k 0
    have htotal := h.sound.total_eq
    refine ⟨?_, Book.nonneg_put h.sound.nonneg k le_rfl⟩
    show e.book.total = (e.book.put k 0).sum
    omega

theorem cast (h : e.Fair) (hvoted : senderAddress ∉ e.voters) (hk : k ∈ e.names) :
    (e.cast k).Fair where
  distinct := by
    rw [names_cast hk]
    exact h.distinct
  once := by
    rw [Election.cast, ← List.concat_eq_append]
    exact h.once.concat hvoted
  sound := by
    have hbook : (e.cast k).book = e.book.credit k 1 := by
      simp [Election.cast, book, Book.credit, Book.put]
    rw [hbook]
    exact h.sound.credit zero_le_one

theorem close (h : e.Fair) : e.close.Fair := ⟨h.distinct, h.once, h.sound⟩

end Election.Fair

theorem fair_fresh : Election.fresh.Fair :=
  ⟨.nil, .nil, rfl, by simp [Election.fresh, Election.book, Assoc.values]⟩

/-- Voting is closed, and since then at most candidates without votes have been added. -/
def Closed (counts : Assoc String Int) (e : Election) : Prop :=
  e.isOpen = false ∧ ∃ more, e.counts = counts ++ more ∧ ∀ n ∈ Assoc.values more, n = 0

theorem Closed.add {counts : Assoc String Int} {e : Election} {k : String} (h : Closed counts e)
    (hk : k ∉ e.names) : Closed counts (e.add k) := by
  obtain ⟨hclosed, more, hcounts, hzero⟩ := h
  refine ⟨hclosed, more ++ [(k, 0)], ?_, ?_⟩
  · rw [← List.append_assoc, ← hcounts]
    exact Assoc.set_of_not_mem_keys hk 0
  · simpa [Assoc.values, or_imp, forall_and] using hzero

/-! ## Calls -/

/-- A call of an action. -/
inductive Call where
  | addCandidate (name : Text.Points)
  | vote (name : Text.Points)
  | closeVoting

/-- The method of a call, with its arguments. -/
def Call.request : Call → String × List Value
  | addCandidate name => ("add_candidate", [.text name])
  | vote name => ("vote", [.text name])
  | closeVoting => ("close_voting", [])

/-- What a call may do to an election.  It stays fair; when voting is closed counts stay and new
candidates have no votes; and a call that fails changes nothing. -/
structure Election.Step (e : Election) (q : Call) (answer : Except Failure Value) (y : Election) :
    Prop where
  fair : e.Fair → y.Fair
  closed : ∀ counts, Closed counts e → Closed counts y
  unchanged : ∀ reason, answer = .error reason → y = e
  closes : q = .closeVoting → answer = .ok .none ∧ y = e.close

theorem Election.Step.same {e : Election} {q : Call} {answer : Except Failure Value}
    (h : q ≠ .closeVoting) : e.Step q answer e :=
  ⟨id, fun _ => id, fun _ _ => rfl, fun hq => absurd hq h⟩

theorem yields_hasVoted (e : Election) {locals : Assoc String Datum}
    (hself : Assoc.get? "self" locals = some .contract)
    (hsender : Assoc.get? "sender" locals = some (.text senderAddress)) :
    Yields votingClass.methodSetting (e.machine locals)
      (lookUpOr hasVoted (.name "sender") (truth false))
      (.bool (decide (senderAddress ∈ e.voters))) := by
  have htable : Yields votingClass.methodSetting (e.machine locals) hasVoted (.dict 4) :=
    .field hself rfl
  have h := Yields.lookUpOr ordinary htable (.name hsender) rfl (.truth false)
  rwa [show (e.machine locals).entries 4 = marksOf e.voters from rfl, findKey_marksOf] at h

theorem answers (e : Election) (locals : Assoc String Datum) (q : Call) :
    Ends votingClass (Election.machine · []) (e.Step q)
      (Instance.call ⟨votingClass, e.machine locals⟩ q.request.1 q.request.2) := by
  cases q with
  | addCandidate name =>
    let k := name.toString
    refine Ends.call (x := e) rfl rfl rfl rfl ?_
    refine .next (runStmt_lets (.sender ordinary rfl rfl)) ?_
    -- The sender is the administrator.
    refine .refuses (P := False) e (.compare (.name rfl) (.field rfl rfl) rfl)
      (fun _ => .same nofun) rfl fun _ => ?_
    refine .refuses (P := k ∈ e.names) e (.compare (.name rfl) (.field rfl rfl) (relate_isIn rfl k))
      (fun _ => .same nofun) rfl fun hk => ?_
    refine .next (runStmt_appends (.field rfl rfl) (.name rfl) rfl) ?_
    refine .next (runStmt_putsBalance (.field rfl rfl) (b := e.book) rfl (.name rfl) (.number 0)) ?_
    refine .next (runStmt_emits ordinary rfl rfl (.cons (.name rfl) .nil)) ?_
    refine .last (e.add k) ⟨fun h => h.add hk, fun _ h => h.add hk, nofun, nofun⟩ ?_
    -- The list has the new name at its end, and so have the keys of the table.
    show machineOf e.isOpen (e.names.map .text ++ [.text k]) (e.add k).book.rows (marksOf e.voters)
      [] = _
    rw [← List.map_singleton, ← List.map_append, ← Election.names_add hk]
    rfl
  | vote name =>
    let k := name.toString
    refine Ends.call (x := e) rfl rfl rfl rfl ?_
    refine .next (runStmt_lets (.sender ordinary rfl rfl)) ?_
    refine .refuses (P := ¬e.isOpen = true) e (.negated (.field rfl rfl) Bool.decide_eq_true.symm)
      (fun _ => .same nofun) rfl fun hopen => ?_
    refine .refuses e (yields_hasVoted e rfl rfl) (fun _ => .same nofun) rfl fun hvoted => ?_
    refine .refuses (P := k ∉ e.names) e
      (.compare (.name rfl) (.field rfl rfl) (relate_notIn rfl k)) (fun _ => .same nofun) rfl
      fun hmissing => ?_
    have hk : k ∈ e.names := not_not.mp hmissing
    -- The count of a candidate can be updated, for there is one, be it zero.
    have hentry : findKey (.text k) e.book.rows = some (.int (e.book.balance k)) := by
      obtain ⟨v, hv⟩ := Option.isSome_iff_exists.mp (Assoc.has_iff_mem_keys.mpr hk)
      rw [Book.findKey_rows, Book.balance, show e.book.balances = e.counts from rfl, hv]
      rfl
    refine .next (runStmt_updatesIn (.field rfl rfl) (.name rfl) hentry (.number 1) rfl) ?_
    refine .next (runStmt_putsIn (.field rfl rfl) (.name rfl) (.truth true)) ?_
    refine .next (runStmt_emits ordinary rfl rfl (.cons (.name rfl) (.cons (.name rfl) .nil))) ?_
    refine .last (e.cast k) ⟨fun h => h.cast hvoted hk, fun _ h => ?_, nofun, nofun⟩ ?_
    · exact absurd (not_not.mp hopen) (by simp [h.1])
    have hcounts : setKey (.text k) (.int (e.book.balance k + 1)) e.book.rows =
        (e.cast k).book.rows := Book.setKey_rows ..
    show machineOf e.isOpen (e.names.map .text)
      (setKey (.text k) (.int (e.book.balance k + 1)) e.book.rows)
      (setKey (.text senderAddress) (.bool true) (marksOf e.voters)) [] = _
    rw [hcounts, setKey_marksOf hvoted, ← Election.names_cast hk]
    rfl
  | closeVoting =>
    refine Ends.call (x := e) rfl rfl rfl rfl ?_
    refine .next (runStmt_lets (.sender ordinary rfl rfl)) ?_
    refine .refuses (P := False) e (.compare (.name rfl) (.field rfl rfl) rfl) False.elim rfl
      fun _ => ?_
    refine .next (runStmt_puts rfl (.truth false)) ?_
    refine .next (runStmt_emits ordinary rfl rfl .nil) ?_
    exact .last e.close ⟨.close, fun _ h => ⟨rfl, h.2⟩, nofun, fun _ => ⟨rfl, rfl⟩⟩ rfl

def conduct : Conduct Election Call where
  cls := votingClass
  machine e := e.machine []
  request := Call.request
  Allows := Election.Step
  answers := answers

/-! ## The winner -/

section Winner

variable {count : String → Int} {names seen : List String} {w x : String}

/-- The first of the names with the greatest count. -/
def FirstBest (count : String → Int) (names : List String) (w : String) : Prop :=
  ∃ front back, names = front ++ w :: back ∧ (∀ x ∈ front, count x < count w) ∧
    ∀ x ∈ back, count x ≤ count w

theorem FirstBest.le (h : FirstBest count seen w) : ∀ y ∈ seen, count y ≤ count w := by
  obtain ⟨front, back, rfl, hfront, hback⟩ := h
  intro y hy
  rcases List.mem_append.mp hy with hy | hy
  · exact (hfront y hy).le
  · rcases List.mem_cons.mp hy with rfl | hy
    · exact le_rfl
    · exact hback y hy

/-- A name with no greater count changes nothing. -/
theorem FirstBest.stay (h : FirstBest count seen w) (hx : count x ≤ count w) :
    FirstBest count (seen ++ [x]) w := by
  obtain ⟨front, back, rfl, hfront, hback⟩ := h
  refine ⟨front, back ++ [x], by simp, hfront, fun y hy => ?_⟩
  rcases List.mem_append.mp hy with hy | hy
  · exact hback y hy
  · rwa [List.mem_singleton.mp hy]

/-- A name with a greater count than all before is the first of the best. -/
theorem FirstBest.lead (h : ∀ y ∈ seen, count y < count x) : FirstBest count (seen ++ [x]) x :=
  ⟨seen, [], rfl, h, by simp⟩

/-- Who is named as the winner of some candidates. -/
def Elected (count : String → Int) (names : List String) (w : String) : Prop :=
  (names = [] ∧ w = "No candidates") ∨ FirstBest count names w

/-- The name and the number with which the loop goes on after some candidates: before the first
one they are empty and less than any count. -/
def Leads (count : String → Int) (seen : List String) (w : String) (best : Int) : Prop :=
  (seen = [] ∧ w = "" ∧ best = -1) ∨ (FirstBest count seen w ∧ best = count w)

theorem Leads.next {best : Int} (h : Leads count seen w best) (hx : 0 ≤ count x) :
    Leads count (seen ++ [x]) (if best < count x then x else w)
      (if best < count x then count x else best) := by
  rcases h with ⟨rfl, rfl, rfl⟩ | ⟨hbest, rfl⟩
  · rw [if_pos (by omega), if_pos (by omega)]
    exact .inr ⟨.lead (by simp), rfl⟩
  · split_ifs with hlt
    · exact .inr ⟨.lead fun y hy => (hbest.le y hy).trans_lt hlt, rfl⟩
    · exact .inr ⟨hbest.stay (not_lt.mp hlt), rfl⟩

/-- The locals of the loop: the name and the number to go on with. -/
structure Tallying (locals : Assoc String Datum) (w : String) (best : Int) : Prop where
  self : Assoc.get? "self" locals = some .contract
  winner : Assoc.get? "winner" locals = some (.text w)
  best : Assoc.get? "max_votes" locals = some (.int best)

namespace Tallying

variable {locals : Assoc String Datum} {best : Int}

theorem set (h : Tallying locals w best) {y : String} (hy : y ∉ ["self", "winner", "max_votes"])
    (d : Datum) : Tallying (Assoc.set y d locals) w best := by
  simp only [List.mem_cons, List.not_mem_nil, or_false, not_or] at hy
  obtain ⟨hself, hwinner, hbest⟩ := hy
  refine ⟨?_, ?_, ?_⟩
  · rw [Assoc.get?_set_of_ne (Ne.symm hself), h.self]
  · rw [Assoc.get?_set_of_ne (Ne.symm hwinner), h.winner]
  · rw [Assoc.get?_set_of_ne (Ne.symm hbest), h.best]

theorem replace (hself : Assoc.get? "self" locals = some .contract) (x : String) (n : Int) :
    Tallying (Assoc.set "winner" (.text x) (Assoc.set "max_votes" (.int n) locals)) x n := by
  refine ⟨?_, Assoc.get?_set_self .., ?_⟩
  · rw [Assoc.get?_set_of_ne (by decide), Assoc.get?_set_of_ne (by decide), hself]
  · rw [Assoc.get?_set_of_ne (by decide), Assoc.get?_set_self]

end Tallying

/-- A machine whose candidates have some names and whose table of votes is a book without negative
entries. -/
structure Polled (m : Machine) (names : List String) (b : Book) : Prop where
  candidates : ∃ cell, Assoc.get? "candidates" m.attributes = some (.list cell) ∧
    m.items cell = names.map Datum.text
  counts : ∃ cell, Assoc.get? "vote_counts" m.attributes = some (.dict cell) ∧
    m.entries cell = b.rows
  nonneg : ∀ n ∈ Assoc.values b.balances, 0 ≤ n

variable {m : Machine} {b : Book}

/-- One turn of the loop compares the candidate with the best one so far. -/
theorem run_turn (hm : Polled m names b) {locals : Assoc String Datum} {best : Int}
    (h : Tallying locals w best) (x : String) :
    ∃ locals', runBlock votingClass.methodSetting turnBody
        { m with locals := Assoc.set "candidate" (.text x) locals } =
          .ok .next { m with locals := locals' } ∧
      Tallying locals' (if best < b.balance x then x else w)
        (if best < b.balance x then b.balance x else best) := by
  obtain ⟨cell, htable, hrows⟩ := hm.counts
  let named : Assoc String Datum := Assoc.set "candidate" (.text x) locals
  let counted : Assoc String Datum := Assoc.set "votes" (.int (b.balance x)) named
  let replaced : Assoc String Datum :=
    Assoc.set "winner" (.text x) (Assoc.set "max_votes" (.int (b.balance x)) counted)
  have hnamed : Tallying named w best := h.set (by decide) _
  have hcounted : Tallying counted w best := hnamed.set (by decide) _
  have hvotes : Yields votingClass.methodSetting { m with locals := named }
      (lookUp voteCounts (.name "candidate")) (.int (b.balance x)) :=
    .balance ordinary (.field hnamed.self htable) hrows (.name (Assoc.get?_set_self ..))
  have hgreater : Yields votingClass.methodSetting { m with locals := counted }
      (.compare (.name "votes") .gt (.name "max_votes") []) (.bool (decide (best < b.balance x))) :=
    .compare (.name (Assoc.get?_set_self ..)) (.name hcounted.best) (relate_gt ..)
  have hcandidate : Assoc.get? "candidate"
      (Assoc.set "max_votes" (.int (b.balance x)) counted) = some (.text x) := by
    rw [Assoc.get?_set_of_ne (by decide), Assoc.get?_set_of_ne (by decide), Assoc.get?_set_self]
  have hreplace : runBlock votingClass.methodSetting
      [lets "max_votes" (.name "votes"), lets "winner" (.name "candidate")]
      { m with locals := counted } = .ok .next { m with locals := replaced } :=
    (runBlock_next (runStmt_lets (.name (Assoc.get?_set_self ..)))).trans
      (runBlock_next (runStmt_lets (.name hcandidate)))
  have hrun := (runBlock_next (runStmt_lets hvotes)).trans (runBlock_whenever hgreater hreplace)
  by_cases hlt : best < b.balance x
  · rw [if_pos hlt] at hrun
    rw [if_pos hlt, if_pos hlt]
    exact ⟨_, hrun, .replace hcounted.self x _⟩
  · rw [if_neg hlt] at hrun
    rw [if_neg hlt, if_neg hlt]
    exact ⟨_, hrun, hcounted⟩

/-- The machine before a turn of the loop: the locals hold the leader of the candidates seen so
far, and all else is as it was. -/
def Seen (m : Machine) (b : Book) (seen : List String) (m' : Machine) : Prop :=
  ∃ locals w best, m' = { m with locals := locals } ∧ Tallying locals w best ∧
    Leads b.balance seen w best

theorem seen_turn (hm : Polled m names b) {m' : Machine} (h : Seen m b seen m') (x : String) :
    ∃ m'', runBlock votingClass.methodSetting turnBody
        { m' with locals := Assoc.set "candidate" (.text x) m'.locals } = .ok .next m'' ∧
      Seen m b (seen ++ [x]) m'' := by
  obtain ⟨locals, w, best, rfl, htally, hleads⟩ := h
  obtain ⟨locals', hrun, htally'⟩ := run_turn hm htally x
  exact ⟨_, hrun, locals', _, _, rfl, htally', hleads.next (Book.balance_nonneg hm.nonneg x)⟩

/-- The loop finds the first of the best candidates. -/
theorem run_search (hm : Polled m names b) :
    ∃ w best locals, Leads b.balance names w best ∧
      runBlock votingClass.methodSetting getWinnerBody.tail
        { m with locals := [("self", .contract)] } =
          .ok (.done (.text w)) { m with locals := locals } := by
  obtain ⟨cell, hlist, hitems⟩ := hm.candidates
  let begun : Assoc String Datum :=
    [("self", .contract), ("winner", .text ""), ("max_votes", .int (-1))]
  have hbegun : Seen m b [] { m with locals := begun } :=
    ⟨begun, "", -1, rfl, ⟨rfl, rfl, rfl⟩, .inl ⟨rfl, rfl, rfl⟩⟩
  have hloop : ∃ m', runStmt votingClass.methodSetting (loops "candidate" candidates turnBody)
      { m with locals := begun } = .ok .next m' ∧ Seen m b names m' :=
    runStmt_loops (.field rfl hlist) hitems (fun _ x _ _ _ h => seen_turn hm h x) hbegun
  obtain ⟨_, hrun, locals, w, best, rfl, htally, hleads⟩ := hloop
  refine ⟨w, best, locals, hleads, ?_⟩
  refine (runBlock_next (runStmt_lets (.words ""))).trans ?_
  refine (runBlock_next (runStmt_lets (.negative 1))).trans ?_
  refine (runBlock_next hrun).trans ?_
  exact runBlock_done (runStmt_ret (.name htally.winner))

/-- The method names the winner of the candidates by their counts. -/
theorem run_getWinner (hm : Polled m names b) :
    ∃ w locals, Elected b.balance names w ∧
      runBlock votingClass.methodSetting getWinnerBody
        { m with locals := [("self", .contract)] } =
          .ok (.done (.text w)) { m with locals := locals } := by
  obtain ⟨cell, hlist, hitems⟩ := hm.candidates
  have hempty : Yields votingClass.methodSetting { m with locals := [("self", .contract)] }
      (negated candidates) (.bool (decide ¬names ≠ [])) :=
    .negated (.field rfl hlist) (isTrue_names hitems)
  have hreturn : runBlock votingClass.methodSetting [.ret (some (words "No candidates"))]
      { m with locals := [("self", .contract)] } =
        .ok (.done (.text "No candidates")) { m with locals := [("self", .contract)] } :=
    runBlock_done (runStmt_ret (.words _))
  have hguard : runBlock votingClass.methodSetting getWinnerBody _ = _ :=
    runBlock_whenever_done hempty hreturn
  by_cases hnames : names = []
  · rw [if_pos (not_not.mpr hnames)] at hguard
    exact ⟨_, _, .inl ⟨hnames, rfl⟩, hguard⟩
  · rw [if_neg (not_not.mpr hnames)] at hguard
    obtain ⟨w, best, locals, hleads, hrun⟩ := run_search hm
    have hbest : FirstBest b.balance names w := (hleads.resolve_left fun h => hnames h.1).1
    exact ⟨w, locals, .inr hbest, hguard.trans hrun⟩

end Winner

/-! ## Instances -/

/-- The candidates and their votes that an instance shows. -/
structure Shows (i : Instance) (names : List String) (counts : Assoc String Int) : Prop where
  candidates : i.attribute? "candidates" = some (.list (namesShown names))
  counts : i.attribute? "vote_counts" =
    some (.dict (counts.map fun e => (.text (Text.pointsOf e.1), .int e.2)))

/-- Asked for the winner, an instance names the one who is elected. -/
def NamesWinner (i : Instance) (names : List String) (counts : Assoc String Int) : Prop :=
  ∃ w, Elected (fun x => (Assoc.get? x counts).getD 0) names w ∧
    (i.call "get_winner" []).1 = .ok (.text (Text.pointsOf w))

theorem Shows.polled {i : Instance} {names : List String} {counts : Assoc String Int}
    (h : Shows i names counts) (hnonneg : ∀ n ∈ Assoc.values counts, 0 ≤ n) :
    Polled i.machine names ⟨counts, 0⟩ where
  candidates := by
    obtain ⟨d, hget, hvalue⟩ := Option.map_eq_some_iff.mp h.candidates
    obtain ⟨cell, rfl, hitems⟩ := items_of_value hvalue
    exact ⟨cell, hget, hitems⟩
  counts := by
    obtain ⟨d, hget, hvalue⟩ := Option.map_eq_some_iff.mp h.counts
    obtain ⟨cell, rfl, hrows⟩ := rows_of_value (b := ⟨counts, 0⟩) hvalue
    exact ⟨cell, hget, hrows⟩
  nonneg := hnonneg

theorem call_getWinner {i : Instance} {names : List String} {counts : Assoc String Int}
    (hclass : i.cls = votingClass) (hfree : i.attribute? "get_winner" = none)
    (h : Shows i names counts) (hnonneg : ∀ n ∈ Assoc.values counts, 0 ≤ n) :
    NamesWinner i names counts := by
  obtain ⟨cls, m⟩ := i
  obtain rfl : cls = votingClass := hclass
  obtain ⟨w, locals, helected, hrun⟩ := run_getWinner (h.polled hnonneg)
  have hcall := Instance.call_eq ⟨votingClass, m⟩ "get_winner" []
    (Option.map_eq_none_iff.mp hfree) rfl rfl rfl
  exact ⟨w, helected, congrArg Prod.fst (hcall.trans (congrArg _ hrun))⟩

/-- The containers that an instance shows are in step: the candidates are different and are those
whose votes are counted, no count is negative, and there are as many votes as voters. -/
structure InStep (i : Instance) (counts : Assoc String Int) (voters : List String) : Prop where
  shows : Shows i (Assoc.keys counts) counts
  marks : i.attribute? "has_voted" = some (.dict (marksShown voters))
  distinct : (Assoc.keys counts).Nodup
  nonneg : ∀ n ∈ Assoc.values counts, 0 ≤ n
  once : voters.Nodup
  sum_eq : (Assoc.values counts).sum = voters.length

/-- Whatever calls an instance has got, also ones that failed, its containers are in step and it
names the winner, a further call that fails changes nothing, and once voting has been closed counts
stay: a candidate that is added then gets no votes. -/
structure KeepsTally (i : Instance) : Prop where
  inStep : ∀ calls : List Call, ∃ counts voters,
    InStep (i.after (calls.map Call.request)) counts voters ∧
    NamesWinner (i.after (calls.map Call.request)) (Assoc.keys counts) counts
  unchanged : ∀ (calls : List Call) (q : Call) (e : Failure),
    ((i.after (calls.map Call.request)).call q.request.1 q.request.2).1 = .error e →
    SameAttributes (i.after (calls.map Call.request))
      ((i.after (calls.map Call.request)).call q.request.1 q.request.2).2
  closed : ∀ earlier later : List Call, ∃ counts more,
    ((i.after (earlier.map Call.request)).call "close_voting" []).1 = .ok .none ∧
    Shows (i.after (earlier.map Call.request)) (Assoc.keys counts) counts ∧
    Shows (((i.after (earlier.map Call.request)).call "close_voting" []).2.after
      (later.map Call.request)) (Assoc.keys (counts ++ more)) (counts ++ more) ∧
    ∀ n ∈ Assoc.values more, n = 0

theorem shows_holder (e : Election) (locals : Assoc String Datum) :
    Shows (conduct.holder e locals) e.names e.counts where
  candidates := congrArg some (value_names (List.cons_ne_nil _ _) rfl)
  counts := congrArg some (value_rows (b := e.book) (List.cons_ne_nil _ _) rfl)

theorem Election.Fair.inStep {e : Election} (h : e.Fair) (locals : Assoc String Datum) :
    InStep (conduct.holder e locals) e.counts e.voters where
  shows := shows_holder e locals
  marks := congrArg some (value_marks (List.cons_ne_nil _ _) rfl)
  distinct := h.distinct
  nonneg := h.sound.nonneg
  once := h.once
  sum_eq := h.sound.total_eq.symm

theorem keepsTally_fresh : KeepsTally (conduct.holder .fresh []) where
  inStep := by
    intro calls
    obtain ⟨e, left, hfair, hafter⟩ :=
      conduct.after_holder (fun _ _ _ _ h => h.fair) fair_fresh [] calls
    rw [show Call.request = conduct.request from rfl, hafter]
    exact ⟨_, _, hfair.inStep left,
      call_getWinner rfl rfl (shows_holder _ left) hfair.sound.nonneg⟩
  unchanged := by
    intro calls q reason
    obtain ⟨e, left, -, hafter⟩ :=
      conduct.after_holder (fun _ _ _ _ h => h.fair) fair_fresh [] calls
    rw [show Call.request = conduct.request from rfl, hafter]
    exact conduct.sameAttributes_of_error fun _ h => h.unchanged reason rfl
  closed := by
    intro earlier later
    obtain ⟨e, left, -, hafter⟩ :=
      conduct.after_holder (fun _ _ _ _ h => h.fair) fair_fresh [] earlier
    obtain ⟨_, _, left', hclose, hstep⟩ := answers e left .closeVoting
    obtain ⟨rfl, rfl⟩ := hstep.closes rfl
    have hclosed : Closed e.counts e.close :=
      ⟨rfl, [], (List.append_nil _).symm, by simp [Assoc.values]⟩
    obtain ⟨y, left'', ⟨-, more, hmore, hzero⟩, hlater⟩ :=
      conduct.after_holder (fun _ _ _ _ h => h.closed e.counts) hclosed left' later
    refine ⟨e.counts, more, ?_, ?_, ?_, hzero⟩
    all_goals rw [show Call.request = conduct.request from rfl, hafter]
    · exact congrArg Prod.fst hclose
    · exact shows_holder e left
    · have hend : (((conduct.holder e left).call "close_voting" []).2.after
          (later.map conduct.request)) = conduct.holder y left'' :=
        (congrArg (fun r => Instance.after r.2 (later.map conduct.request)) hclose).trans hlater
      rw [hend, ← hmore]
      exact shows_holder _ left''

end Voting

open Voting in
/-- **Voting is sound.**  A fresh instance of the voting contract keeps its tally, whatever calls it
gets.  And every instance of its class, whatever candidates and counts it has come to show, names
the winner of these candidates by these counts. -/
theorem voting_keeps_tally :
    ∃ sample cls i, find? "VotingContract" starters = some sample ∧ sample.class? = some cls ∧
      cls.instantiate = (.ok (), i) ∧ KeepsTally i ∧
      ∀ (j : Instance) names counts, j.cls = cls → j.attribute? "get_winner" = none →
        Shows j names counts → (∀ n ∈ Assoc.values counts, 0 ≤ n) → NamesWinner j names counts :=
  ⟨⟨"VotingContract", voting⟩, votingClass, conduct.holder .fresh [], rfl, class_voting,
    instantiate_voting, keepsTally_fresh, fun _ _ _ => call_getWinner⟩

end ContractKit.Samples
