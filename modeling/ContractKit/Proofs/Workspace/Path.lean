import Mathlib
import ContractKit.Workspace.Path

/-!
# Paths and names

A name is what stands between two slashes of a path: a text without slashes that is neither empty
nor a single dot.  A path of names is what is read from its text.
-/

namespace ContractKit

variable {p : Path} {ending name s : String}

theorem splitChars_eq_splitOn (separator : Char) (cs : List Char) :
    splitChars separator cs = cs.splitOn separator := by
  induction cs with
  | nil => simp [splitChars]
  | cons c rest ih =>
    simp only [splitChars, ih, List.splitOn, List.splitOnP_cons_eq_if_modifyHead, beq_iff_eq]
    by_cases hc : c = separator
    · rw [if_pos hc, if_pos hc]
    · rw [if_neg hc, if_neg hc]
      cases hrest : rest.splitOnP (· == separator) with
      | nil => exact absurd hrest (List.splitOnP_ne_nil _ rest)
      | cons part parts => rfl

theorem not_mem_of_mem_splitChars {separator : Char} {cs part : List Char}
    (h : part ∈ splitChars separator cs) : separator ∉ part := by
  induction cs generalizing part with
  | nil => simp_all [splitChars]
  | cons c rest ih =>
    rw [splitChars] at h
    by_cases hc : c = separator
    · rw [if_pos hc] at h
      rcases List.mem_cons.mp h with rfl | h
      · simp
      · exact ih h
    · rw [if_neg hc] at h
      cases hrest : splitChars separator rest with
      | nil =>
        rw [hrest] at h
        simp_all [Ne.symm hc]
      | cons first parts =>
        rw [hrest] at h
        rcases List.mem_cons.mp h with rfl | h
        · have hfirst := ih (show first ∈ _ by simp [hrest])
          simp [hfirst, Ne.symm hc]
        · exact ih (by simp [hrest, h])

namespace Path

/-- A name can be a part of a path. -/
structure IsName (s : String) : Prop where
  noSlash : '/' ∉ s.toList
  ne_empty : s ≠ ""
  ne_dot : s ≠ "."

/-- A name that is an entry of a directory. -/
structure IsEntry (s : String) : Prop extends IsName s where
  ne_up : s ≠ ".."

/-- What can name a directory below another one: any text without slashes that is not empty. -/
structure IsStem (s : String) : Prop where
  noSlash : '/' ∉ s.toList
  ne_empty : s ≠ ""

def Named (p : Path) : Prop := ∀ part ∈ p.parts, IsName part

/-! ## Reading and writing -/

/-- A part of a text as a part of a path; empty parts and single dots mean nothing. -/
def partOf (cs : List Char) : Option String :=
  if cs.isEmpty || cs == ['.'] then none else some (String.ofList cs)

theorem parts_ofText (s : String) :
    (ofText s).parts = (splitChars '/' s.toList).filterMap partOf := rfl

theorem partOf_name (h : IsName s) : partOf s.toList = some s := by
  have hempty : s.toList ≠ [] := fun hnil => h.ne_empty (String.toList_eq_nil_iff.mp hnil)
  have hdot : s.toList ≠ ['.'] := fun hdot => h.ne_dot (String.toList_inj.mp hdot)
  simp [partOf, hempty, hdot]

theorem named_ofText (s : String) : (ofText s).Named := by
  intro part hpart
  rw [parts_ofText] at hpart
  obtain ⟨cs, hcs, hpart⟩ := List.mem_filterMap.mp hpart
  unfold partOf at hpart
  split at hpart
  · simp at hpart
  case isFalse hkept =>
    obtain rfl := Option.some.inj hpart
    simp only [Bool.or_eq_true, List.isEmpty_iff, beq_iff_eq, not_or] at hkept
    refine ⟨?_, ?_, ?_⟩
    · rw [String.toList_ofList]
      exact not_mem_of_mem_splitChars hcs
    · intro hempty
      exact hkept.1 (by simpa using congrArg String.toList hempty)
    · intro hdot
      exact hkept.2 (by simpa using congrArg String.toList hdot)

/-- Names with slashes between them are the parts of that text. -/
theorem parts_intercalate {parts : List String} (h : ∀ part ∈ parts, IsName part) :
    (splitChars '/' ("/".intercalate parts).toList).filterMap partOf = parts := by
  rcases eq_or_ne parts [] with rfl | hne
  · rfl
  · have hslash : ∀ cs ∈ parts.map String.toList, '/' ∉ cs := by
      intro cs hcs
      obtain ⟨part, hpart, rfl⟩ := List.mem_map.mp hcs
      exact (h part hpart).noSlash
    have htext : ("/".intercalate parts).toList = ['/'].intercalate (parts.map String.toList) := by
      rw [String.toList_intercalate]
      rfl
    rw [htext, splitChars_eq_splitOn, List.splitOn_intercalate '/' hslash (by simpa using hne),
      List.filterMap_map]
    calc parts.filterMap (partOf ∘ String.toList)
        = parts.filterMap some :=
          List.filterMap_congr fun part hpart => partOf_name (h part hpart)
      _ = parts := List.filterMap_some

theorem head?_intercalate {part : String} {parts : List String} (h : IsName part) :
    ∃ c, ("/".intercalate (part :: parts)).toList.head? = some c ∧ c ≠ '/' := by
  obtain ⟨c, more, hchars⟩ := List.exists_cons_of_ne_nil
    (show part.toList ≠ [] from fun hnil => h.ne_empty (String.toList_eq_nil_iff.mp hnil))
  have hc : c ≠ '/' := by
    rintro rfl
    exact h.noSlash (by simp [hchars])
  refine ⟨c, ?_, hc⟩
  rw [String.toList_intercalate, List.map_cons, hchars]
  cases parts with
  | nil => simp
  | cons next rest => simp [List.intercalate_cons_cons]

theorem ofText_text (h : p.Named) : ofText p.text = p := by
  obtain ⟨absolute, parts⟩ := p
  have hparts := parts_intercalate h
  cases absolute with
  | true =>
    have hchars : (text ⟨true, parts⟩).toList = '/' :: ("/".intercalate parts).toList := by
      simp [text, String.toList_append]
    have hread : (ofText (text ⟨true, parts⟩)).parts = parts := by
      rw [parts_ofText, hchars, splitChars, if_pos rfl]
      exact hparts
    have habsolute : (ofText (text ⟨true, parts⟩)).absolute = true := by
      simp [ofText, hchars]
    exact congrArg₂ Path.mk habsolute hread
  | false =>
    cases parts with
    | nil => decide
    | cons part rest =>
      obtain ⟨c, hhead, hc⟩ := head?_intercalate (h part List.mem_cons_self)
      have habsolute : (ofText (text ⟨false, part :: rest⟩)).absolute = false := by
        change (("/".intercalate (part :: rest)).toList.head? == some '/') = false
        rw [hhead]
        simpa using hc
      exact congrArg₂ Path.mk habsolute hparts

theorem text_ne_empty (h : p.Named) : p.text ≠ "" := by
  intro hempty
  have hread := ofText_text h
  rw [hempty] at hread
  rw [← hread] at hempty
  exact absurd hempty (by decide)

/-! ## Paths below others -/

theorem ofText_name (h : IsName s) : ofText s = ⟨false, [s]⟩ := by
  have hnamed : Named ⟨false, [s]⟩ := by simpa [Named] using h
  have hread := ofText_text hnamed
  simpa [text] using hread

theorem join_name (p : Path) (h : IsName s) : p.join s = ⟨p.absolute, p.parts ++ [s]⟩ := by
  rw [join, ofText_name h]
  rfl

theorem join_dot (p : Path) : p.join "." = p := by
  have hdot : ofText "." = ⟨false, []⟩ := by decide
  rw [join, hdot]
  simp

theorem Named.join (hp : p.Named) (h : IsName s) : (p.join s).Named := by
  rw [join_name p h]
  intro part hpart
  rcases List.mem_append.mp hpart with hpart | hpart
  · exact hp part hpart
  · rw [List.mem_singleton.mp hpart]
    exact h

/-! ## Endings -/

theorem endsWith_iff :
    endsWith ending name = true ↔ ∃ front, name.toList = front ++ ending.toList := by
  rw [endsWith, List.isPrefixOf_iff_prefix, List.reverse_prefix]
  constructor
  · rintro ⟨front, h⟩
    exact ⟨front, h.symm⟩
  · rintro ⟨front, h⟩
    exact ⟨front, h.symm⟩

/-- The stem of a name with an ending is what stands before it; if nothing does it is the whole
name. -/
theorem toList_stemOf {front ending : List Char} (hname : name.toList = front ++ '.' :: ending)
    (hdot : '.' ∉ ending) (hne : ending ≠ []) :
    (stemOf name).toList = if front = [] then name.toList else front := by
  have hreverse : name.toList.reverse = ending.reverse ++ '.' :: front.reverse := by
    simp [hname]
  have hending : name.toList.reverse.takeWhile (· != '.') = ending.reverse := by
    have hkept : ∀ c ∈ ending.reverse, (c != '.') = true := by
      intro c hc
      rw [bne_iff_ne]
      rintro rfl
      exact hdot (List.mem_reverse.mp hc)
    rw [hreverse, List.takeWhile_append_of_pos hkept]
    simp
  have hfront : name.toList.reverse.drop (ending.reverse.length + 1) = front.reverse := by
    rw [hreverse, ← List.drop_drop, List.drop_left]
    rfl
  simp only [stemOf, hending, hfront]
  by_cases hempty : front = []
  · simp [hempty]
  · rw [if_neg (by simp [hempty, hne]), if_neg hempty, String.toList_ofList, List.reverse_reverse]

theorem stemOf_cases (h : endsWith ("." ++ ending) name = true) (hdot : '.' ∉ ending.toList)
    (hne : ending ≠ "") :
    stemOf name = name ∨ name = stemOf name ++ "." ++ ending ∧ stemOf name ≠ "" := by
  obtain ⟨front, hname⟩ := endsWith_iff.mp h
  have hchars : name.toList = front ++ '.' :: ending.toList := by simpa using hname
  have hstem := toList_stemOf hchars hdot fun hnil => hne (String.toList_eq_nil_iff.mp hnil)
  by_cases hfront : front = []
  · rw [if_pos hfront] at hstem
    exact .inl (String.toList_inj.mp hstem)
  · rw [if_neg hfront] at hstem
    refine .inr ⟨String.toList_inj.mp ?_, ?_⟩
    · simp [hchars, hstem]
    · intro hempty
      rw [hempty] at hstem
      exact hfront hstem.symm

/-- The stem of a file has no slash if its name has none, and is not empty. -/
theorem isStem_stemOf (h : endsWith ("." ++ ending) name = true) (hdot : '.' ∉ ending.toList)
    (hne : ending ≠ "") (hslash : '/' ∉ name.toList) : IsStem (stemOf name) := by
  rcases stemOf_cases h hdot hne with hstem | ⟨hname, hstem⟩
  · rw [hstem]
    refine ⟨hslash, ?_⟩
    rintro rfl
    exact absurd h (by simp [endsWith])
  · refine ⟨fun hmem => hslash ?_, hstem⟩
    rw [hname]
    simp [hmem]

/-- A longer name that begins as a stem does. -/
theorem isEntry_append {stem suffix : String} (hstem : '/' ∉ stem.toList)
    (hsuffix : '/' ∉ suffix.toList) (hlength : 3 ≤ suffix.length) : IsEntry (stem ++ suffix) := by
  have hlong : 3 ≤ (stem ++ suffix).length := by
    rw [String.length_append]
    omega
  refine ⟨⟨by simp [hstem, hsuffix], ?_, ?_⟩, ?_⟩
  all_goals
    intro heq
    rw [heq] at hlong
    exact absurd hlong (by decide)

theorem absolute_join (p : Path) (h : IsStem s) : (p.join s).absolute = p.absolute := by
  by_cases hdot : s = "."
  · rw [hdot, join_dot]
  · rw [join_name p ⟨h.noSlash, h.ne_empty, hdot⟩]

theorem Named.directory (hp : p.Named) (h : IsStem s) : (p.join s).Named := by
  by_cases hdot : s = "."
  · rw [hdot, join_dot]
    exact hp
  · exact hp.join ⟨h.noSlash, h.ne_empty, hdot⟩

end Path

end ContractKit
