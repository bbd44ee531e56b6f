import ContractKit.Proofs.Session.Files

/-!
# Tasks that only look and ask

Most steps of a task report, look at files and ask the outside.  They leave the files and the
outside of the session as they are, so what one of them finds still holds for those that follow.

A task is described from the session at the start: whenever nothing but reports and questions of
some kind has happened since, it ends with nothing else done, and its result has a property.  The
property can speak of the files and the outside at the start.
-/

namespace ContractKit

variable {α β : Type} {P : Call → Prop} {s₀ s s' s'' : Session}

/-- The second session is the first one after some reports and some questions of a kind. -/
structure Asked (P : Call → Prop) (s s' : Session) : Prop extends Reported s s' where
  calls : ∃ new, s'.calls = s.calls ++ new ∧ ∀ call ∈ new, P call

theorem Asked.refl (s : Session) : Asked P s s := ⟨.refl s, [], by simp, by simp⟩

theorem Asked.trans (h : Asked P s s') (h' : Asked P s' s'') : Asked P s s'' := by
  obtain ⟨new, hcalls, hnew⟩ := h.calls
  obtain ⟨new', hcalls', hnew'⟩ := h'.calls
  exact ⟨h.toReported.trans h'.toReported, new ++ new', by simp [hcalls, hcalls'],
    List.forall_mem_append.mpr ⟨hnew, hnew'⟩⟩

/-- The task only looks and asks questions of a kind, and its result has a property, if nothing
else has been done since the start. -/
def Asks (P : Call → Prop) (s₀ : Session) (x : SessionM α) (post : α → Prop) : Prop :=
  ∀ s, Asked P s₀ s → ∃ r s', x s = endWith r s' ∧ Asked P s₀ s' ∧ ∀ a, r = .ok a → post a

namespace Asks

variable {x : SessionM α} {post post' : α → Prop} {post₂ : β → Prop}

theorem mono (h : Asks P s₀ x post) (hpost : ∀ a, post a → post' a) : Asks P s₀ x post' := by
  intro s hs
  obtain ⟨r, s', hrun, hs', hr⟩ := h s hs
  exact ⟨r, s', hrun, hs', fun a ha => hpost a (hr a ha)⟩

theorem bind {f : α → SessionM β} (hx : Asks P s₀ x post)
    (hf : ∀ a, post a → Asks P s₀ (f a) post₂) : Asks P s₀ (x >>= f) post₂ := by
  intro s hs
  obtain ⟨r, s', hrun, hs', hr⟩ := hx s hs
  cases r with
  | error p => exact ⟨.error p, s', bind_error hrun, hs', by simp⟩
  | ok a =>
    obtain ⟨r', s'', hrun', hs'', hr'⟩ := hf a (hr a rfl) s' hs'
    exact ⟨r', s'', (bind_ok hrun).trans hrun', hs'', hr'⟩

theorem attempt (hx : Asks P s₀ x post) :
    Asks P s₀ (attempt x) fun r => ∀ a, r = .ok a → post a := by
  intro s hs
  obtain ⟨r, s', hrun, hs', hr⟩ := hx s hs
  refine ⟨.ok r, s', attempt_endWith hrun, hs', ?_⟩
  rintro _ ⟨⟩
  exact hr

theorem ite {c : Prop} [Decidable c] {y : SessionM α} (hx : c → Asks P s₀ x post)
    (hy : ¬ c → Asks P s₀ y post) : Asks P s₀ (if c then x else y) post := by
  by_cases h : c
  · rw [if_pos h]
    exact hx h
  · rw [if_neg h]
    exact hy h

/-- What follows a task that only looks and asks can be described from the start, too. -/
theorem andThen {Q : EStateM.Result Problem Session β → Prop} {f : α → SessionM β}
    (hx : Asks P s₀ x post) (hstop : ∀ p s, Asked P s₀ s → Q (.error p s))
    (hf : ∀ a, post a → ∀ s, Asked P s₀ s → Q (f a s)) : ∀ s, Asked P s₀ s → Q ((x >>= f) s) := by
  intro s hs
  obtain ⟨r, s', hrun, hs', hr⟩ := hx s hs
  cases r with
  | error p =>
    rw [bind_error hrun]
    exact hstop p s' hs'
  | ok a =>
    rw [bind_ok hrun]
    exact hf a (hr a rfl) s' hs'

/-- The same for a task that is done under a condition only. -/
theorem whenThen {c : Prop} [Decidable c] {Q : EStateM.Result Problem Session β → Prop}
    {x : SessionM PUnit} {f : PUnit → SessionM β} (hx : Asks P s₀ x fun _ => True)
    (hstop : ∀ p s, Asked P s₀ s → Q (.error p s)) (hf : ∀ s, Asked P s₀ s → Q (f ⟨⟩ s)) :
    ∀ s, Asked P s₀ s → Q ((if c then x >>= f else f ⟨⟩) s) := by
  by_cases h : c
  · rw [if_pos h]
    exact hx.andThen hstop fun _ _ => hf
  · rw [if_neg h]
    exact hf

end Asks

/-! ## Steps -/

theorem asks_pure {post : α → Prop} {a : α} (h : post a) : Asks P s₀ (pure a) post := by
  intro s hs
  refine ⟨.ok a, s, rfl, hs, ?_⟩
  rintro _ ⟨⟩
  exact h

theorem asks_throw (p : Problem) {post : α → Prop} : Asks P s₀ (throw p) post :=
  fun s hs => ⟨.error p, s, rfl, hs, by simp⟩

theorem asked_report (text : String) (s : Session) :
    ∃ s', report text s = .ok () s' ∧ Asked P s s' :=
  ⟨_, rfl, ⟨rfl, rfl⟩, [], by simp, by simp⟩

theorem asks_report (text : String) : Asks P s₀ (report text) fun _ => True := by
  intro s hs
  obtain ⟨s', hrun, hs'⟩ := asked_report (P := P) text s
  exact ⟨.ok (), s', hrun, hs.trans hs', fun _ _ => trivial⟩

theorem asks_note {call : Call} (h : P call) :
    Asks P s₀ (note call) fun _ => True :=
  fun _ hs => ⟨.ok (), _, rfl, hs.trans ⟨⟨rfl, rfl⟩, [call], rfl, by simpa using h⟩,
    fun _ _ => trivial⟩

theorem asks_outside : Asks P s₀ outside (· = s₀.outside) := by
  intro s hs
  refine ⟨.ok s.outside, s, rfl, hs, ?_⟩
  rintro _ ⟨⟩
  exact hs.outside

theorem asks_demand (x : Except Json.Misuse α) : Asks P s₀ (demand x) (x = .ok ·) := by
  cases x with
  | error cause => exact asks_throw _
  | ok a => exact asks_pure rfl

theorem asks_answer (reply : Except String α) : Asks P s₀ (answer reply) (reply = .ok ·) := by
  cases reply with
  | error message => exact asks_throw _
  | ok a => exact asks_pure rfl

theorem asks_refuse (failure : Option String) :
    Asks P s₀ (refuse failure) fun _ => failure = none := by
  cases failure with
  | some message => exact asks_throw _
  | none => exact asks_pure rfl

/-- A question to the outside, and the answer that it gives. -/
theorem asks_question {call : Call} (h : P call) (reply : Outside → Except String α) :
    Asks P s₀ (do note call; answer (reply (← outside))) fun _ => True :=
  (asks_note h).bind fun _ _ => asks_outside.bind fun _ _ =>
    (asks_answer _).mono fun _ _ => trivial

/-! ## Files -/

theorem asks_onFile (path : String) (x : Except FileFault α) :
    Asks P s₀ (onFile path x) (x = .ok ·) := by
  cases x with
  | error fault => exact asks_throw _
  | ok a => exact asks_pure rfl

theorem asks_get : Asks P s₀ get fun s => s.files = s₀.files := by
  intro s hs
  refine ⟨.ok s, s, rfl, hs, ?_⟩
  rintro _ ⟨⟩
  exact hs.files

theorem asks_exists? (path : Path) : Asks P s₀ (exists? path) (s₀.files.exists? path = .ok ·) := by
  refine asks_get.bind fun s hs => ?_
  rw [hs]
  exact asks_onFile _ _

theorem asks_readBytes (name : String) :
    Asks P s₀ (readBytes name) (s₀.files.read (.ofText name) = .ok ·) := by
  refine .ite (fun _ => asks_throw _) fun _ => asks_get.bind fun s hs => ?_
  rw [hs]
  exact asks_onFile _ _

theorem asks_readText (name : String) :
    Asks P s₀ (readText name) fun text => ∃ content, s₀.files.read (.ofText name) = .ok content ∧
      Text.readText content = .ok text := by
  refine (asks_readBytes name).bind fun content hcontent => ?_
  cases htext : Text.readText content with
  | error fault => exact asks_throw _
  | ok text => exact asks_pure ⟨content, hcontent, htext⟩

theorem asks_parseDocument (text : String) :
    Asks P s₀ (parseDocument text) (Json.parse text = .ok ·) := by
  unfold parseDocument
  cases h : Json.parse text with
  | error e => exact asks_throw _
  | ok j => exact asks_pure rfl

theorem asks_readDocument (name : String) :
    Asks P s₀ (readDocument name) fun _ =>
      ∃ content, s₀.files.read (.ofText name) = .ok content := by
  refine (asks_readText name).bind fun text htext => ?_
  obtain ⟨content, hcontent, -⟩ := htext
  exact (asks_parseDocument text).mono fun _ _ => ⟨content, hcontent⟩

/-! ## Questions of a kind -/

/-- All questions of a task are of a kind, whatever else it does. -/
def Speaks (P : Call → Prop) (x : SessionM α) : Prop :=
  ∀ s, ∃ r s' new, x s = endWith r s' ∧ s'.calls = s.calls ++ new ∧ ∀ call ∈ new, P call

theorem Speaks.of_asks {x : SessionM α} (h : ∀ s, Asks P s x fun _ => True) : Speaks P x := by
  intro s
  obtain ⟨r, s', hrun, hs', -⟩ := h s s (.refl s)
  obtain ⟨new, hnew⟩ := hs'.calls
  exact ⟨r, s', new, hrun, hnew⟩

theorem Speaks.bind {x : SessionM α} {f : α → SessionM β} (hx : Speaks P x)
    (hf : ∀ a, Speaks P (f a)) : Speaks P (x >>= f) := by
  intro s
  obtain ⟨r, s', new, hrun, hcalls, hnew⟩ := hx s
  cases r with
  | error p => exact ⟨.error p, s', new, bind_error hrun, hcalls, hnew⟩
  | ok a =>
    obtain ⟨r', s'', new', hrun', hcalls', hnew'⟩ := hf a s'
    exact ⟨r', s'', new ++ new', (bind_ok hrun).trans hrun', by simp [hcalls, hcalls'],
      List.forall_mem_append.mpr ⟨hnew, hnew'⟩⟩

theorem speaks_demand (x : Except Json.Misuse α) : Speaks P (demand x) :=
  .of_asks fun _ => (asks_demand x).mono fun _ _ => trivial

theorem speaks_report (text : String) : Speaks P (report text) := .of_asks fun _ => asks_report text

theorem speaks_pure (a : α) : Speaks P (pure a : SessionM α) := .of_asks fun _ => asks_pure trivial

theorem speaks_writeText (name text : String) : Speaks P (writeText name text) := by
  intro s
  unfold writeText
  split_ifs
  · exact ⟨.error _, s, [], rfl, by simp, by simp⟩
  · rw [bind_ok (show (get : SessionM Session) s = .ok s s from rfl)]
    cases s.files.write (.ofText name) (Text.utf8 text) with
    | error fault => exact ⟨.error _, s, [], rfl, by simp, by simp⟩
    | ok files => exact ⟨.ok (), { s with files := files }, [], rfl, by simp, by simp⟩

theorem speaks_streamDocument (name : String) (document : Json) :
    Speaks P (streamDocument name document) := by
  refine (speaks_writeText name _).bind fun _ => .of_asks fun s => ?_
  exact .ite (fun _ => asks_throw _) fun _ => asks_pure trivial

end ContractKit
