import ContractKit.Proofs.Session.Files

/-!
# Tasks that only look

Some tasks leave a session exactly as it is, and their outcome depends on a part of it only: the
files, or one of them.
-/

namespace ContractKit

variable {α β γ : Type} {s s' : Session} {view : Session → γ}

/-- The task leaves the session as it is, and its outcome depends on a view of the session. -/
def Looks (view : Session → γ) (x : SessionM α) : Prop :=
  ∃ f : γ → Except Problem α, ∀ s, x s = endWith (f (view s)) s

namespace Looks

variable {x : SessionM α}

theorem exists_run (h : Looks view x) (s : Session) : ∃ r, x s = endWith r s := by
  obtain ⟨f, hf⟩ := h
  exact ⟨f (view s), hf s⟩

theorem congr (h : Looks view x) (hview : view s' = view s) {r : Except Problem α}
    (hrun : x s = endWith r s) : x s' = endWith r s' := by
  obtain ⟨f, hf⟩ := h
  rw [hf s] at hrun
  have hr : f (view s) = r := by
    cases hs : f (view s) <;> cases r <;> simp_all [endWith]
  rw [hf s', hview, hr]

theorem bind {f : α → SessionM β} (hx : Looks view x) (hf : ∀ a, Looks view (f a)) :
    Looks view (x >>= f) := by
  obtain ⟨g, hg⟩ := hx
  choose k hk using hf
  refine ⟨fun v => (g v).bind fun a => k a v, fun s => ?_⟩
  have hrun := hg s
  dsimp only
  cases hr : g (view s) with
  | error p =>
    rw [hr] at hrun
    exact bind_error hrun
  | ok a =>
    rw [hr] at hrun
    exact (bind_ok hrun).trans (hk a s)

theorem attempt (hx : Looks view x) : Looks view (attempt x) := by
  obtain ⟨f, hf⟩ := hx
  exact ⟨fun v => .ok (f v), fun s => attempt_endWith (hf s)⟩

end Looks

/-! ## Steps -/

theorem looks_pure (a : α) : Looks view (pure a) := ⟨fun _ => .ok a, fun _ => rfl⟩

theorem looks_throw (p : Problem) : Looks (α := α) view (throw p) :=
  ⟨fun _ => .error p, fun _ => rfl⟩

theorem looks_demand (x : Except Json.Misuse α) : Looks view (demand x) := by
  cases x with
  | error cause => exact looks_throw _
  | ok a => exact looks_pure a

theorem looks_parseDocument (text : String) : Looks view (parseDocument text) := by
  unfold parseDocument
  cases Json.parse text with
  | error e => exact looks_throw _
  | ok j => exact looks_pure j

/-! ## One file -/

/-- What a session shows of the file of a name: whether there is something, and its bytes. -/
def fileView (name : String) (s : Session) :
    Except FileFault Bool × Except FileFault (List UInt8) :=
  (s.files.exists? (.ofText name), s.files.read (.ofText name))

theorem looks_exists? (name : String) : Looks (fileView name) (exists? (.ofText name)) :=
  ⟨fun v => onPath (.ofText name) v.1, fun s => exists?_run (.ofText name) s⟩

theorem looks_readBytes (name : String) : Looks (fileView name) (readBytes name) := by
  unfold readBytes
  by_cases h : name = ""
  · rw [if_pos h]
    exact looks_throw _
  · rw [if_neg h]
    refine ⟨fun v => v.2.mapError (.file · name), fun s => ?_⟩
    rw [bind_ok (show (get : SessionM Session) s = .ok s s from rfl)]
    simp only [fileView]
    cases s.files.read (.ofText name) <;> rfl

theorem looks_readText (name : String) : Looks (fileView name) (readText name) := by
  refine (looks_readBytes name).bind fun content => ?_
  cases Text.readText content with
  | error fault => exact looks_throw _
  | ok text => exact looks_pure text

theorem looks_readDocument (name : String) : Looks (fileView name) (readDocument name) :=
  (looks_readText name).bind looks_parseDocument

end ContractKit
