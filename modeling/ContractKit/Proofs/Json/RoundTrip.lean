import ContractKit.Proofs.Data.Assoc
import ContractKit.Proofs.Json.Fractions

/-!
# Documents are read as they were written

A document that is written with indentation is what is read from its text, if the fields of each
object have different names, no integer has more digits than are read, and every fraction is a
double.

The text of a document is read with any amount of fuel that is not less than its length, and
whatever may follow it.
-/

namespace ContractKit.Json

open Text

/-! ## Documents -/

mutual

/-- Whether a document is read as it was written: its integers are short enough, its fractions are
doubles, and the fields of each object have different names. -/
def Readable : Json → Prop
  | .null => True
  | .bool _ => True
  | .int n => (Nat.toDigits 10 n.natAbs).length ≤ maxDigits
  | .float x => x.IsProper
  | .str _ => True
  | .arr items => ReadableItems items
  | .obj fields => (Assoc.keys fields).Nodup ∧ ReadableFields fields

/-- Whether the items of an array are read as they were written. -/
def ReadableItems : List Json → Prop
  | [] => True
  | x :: xs => Readable x ∧ ReadableItems xs

/-- Whether the fields of an object are read as they were written. -/
def ReadableFields : List (String × Json) → Prop
  | [] => True
  | (_, v) :: fields => Readable v ∧ ReadableFields fields

end

theorem isSpace_newLine (level : Nat) : ∀ c ∈ newLine level, isSpace c = true := by
  intro c h
  rcases List.mem_cons.mp h with rfl | h
  · rfl
  · rw [List.eq_of_mem_replicate h]
    rfl

theorem skipSpaces_append {spaces : List Char} (hspaces : ∀ c ∈ spaces, isSpace c = true)
    {c : Char} (hc : isSpace c = false) (position : Nat) (rest : List Char) :
    ∃ position', skipSpaces ⟨position, spaces ++ c :: rest⟩ = ⟨position', c :: rest⟩ := by
  simp only [skipSpaces, List.dropWhile_append_of_pos hspaces, List.dropWhile_cons, hc]
  exact ⟨_, rfl⟩

theorem skipSpaces_cons {c : Char} (h : isSpace c = false) (position : Nat) (rest : List Char) :
    skipSpaces ⟨position, c :: rest⟩ = ⟨position, c :: rest⟩ := by
  simp [skipSpaces, h]

theorem head?_of_numberHead {cs : List Char} (h : NumberHead cs) :
    ∃ c, cs.head? = some c ∧ isSpace c = false ∧ c ≠ ']' ∧ c ≠ '\x7d' := by
  obtain ⟨c, more, hc, rfl | rfl⟩ := h
  · refine ⟨c, rfl, ?_, ne_of_isDigit hc (by decide), ne_of_isDigit hc (by decide)⟩
    simp [isSpace, ne_of_isDigit hc (show ' '.isDigit = false by decide),
      ne_of_isDigit hc (show '\t'.isDigit = false by decide),
      ne_of_isDigit hc (show '\n'.isDigit = false by decide),
      ne_of_isDigit hc (show '\r'.isDigit = false by decide)]
  · exact ⟨'-', rfl, by decide, by decide, by decide⟩

/-- The first character of a document's text: no space, and none that ends an array or an
object. -/
theorem head?_indented (level : Nat) {j : Json} (h : Readable j) :
    ∃ c, (indented level j).head? = some c ∧ isSpace c = false ∧ c ≠ ']' ∧ c ≠ '\x7d' := by
  cases j with
  | null => exact ⟨'n', by simp [indented], by decide, by decide, by decide⟩
  | bool b =>
    cases b
    · exact ⟨'f', by simp [indented], by decide, by decide, by decide⟩
    · exact ⟨'t', by simp [indented], by decide, by decide, by decide⟩
  | int n => exact head?_of_numberHead (by rw [indented]; exact numberHead_int n)
  | float x =>
    cases x with
    | finite negative m e =>
      exact head?_of_numberHead (by rw [indented]; exact numberHead_double h _)
    | infinite negative =>
      cases negative
      · exact ⟨'I', by simp [indented, doubleText], by decide, by decide, by decide⟩
      · exact ⟨'-', by simp [indented, doubleText], by decide, by decide, by decide⟩
    | nan => exact ⟨'N', by simp [indented, doubleText], by decide, by decide, by decide⟩
  | str s => exact ⟨'"', by simp [indented, stringText], by decide, by decide, by decide⟩
  | arr items =>
    cases items with
    | nil => exact ⟨'[', by simp [indented], by decide, by decide, by decide⟩
    | cons x xs => exact ⟨'[', by simp [indented], by decide, by decide, by decide⟩
  | obj fields =>
    cases fields with
    | nil => exact ⟨'\x7b', by simp [indented], by decide, by decide, by decide⟩
    | cons e fields => exact ⟨'\x7b', by simp [indented], by decide, by decide, by decide⟩

theorem skipSpaces_indented {spaces : List Char} (hspaces : ∀ c ∈ spaces, isSpace c = true)
    (level position : Nat) {j : Json} (h : Readable j) (rest : List Char) :
    ∃ position', skipSpaces ⟨position, spaces ++ (indented level j ++ rest)⟩ =
      ⟨position', indented level j ++ rest⟩ := by
  obtain ⟨c, hhead, hspace, -⟩ := head?_indented level h
  obtain ⟨more, htext⟩ := List.head?_eq_some_iff.mp hhead
  rw [htext, List.cons_append]
  exact skipSpaces_append hspaces hspace position _

theorem value_str (s : String) (fuel position : Nat) (rest : List Char) :
    ∃ position', value (fuel + 1) ⟨position, stringText s ++ rest⟩ =
      .ok (.str s, ⟨position', rest⟩) := by
  obtain ⟨position', htext⟩ := stringAfterQuote_text s (position + 1) rest
  refine ⟨position', ?_⟩
  rw [stringText_append, value]
  simp only [Cursor.advance, List.drop_succ_cons, List.drop_zero, htext]
  rfl

theorem word?_of_numberHead {cs : List Char} (h : NumberHead cs) (position : Nat) :
    word? ⟨position, cs⟩ = none := by
  obtain ⟨c, more, hc, rfl | rfl⟩ := h
  · simp [word?, (ne_of_isDigit hc (show 'n'.isDigit = false by decide)).symm,
      (ne_of_isDigit hc (show 't'.isDigit = false by decide)).symm,
      (ne_of_isDigit hc (show 'f'.isDigit = false by decide)).symm,
      (ne_of_isDigit hc (show 'N'.isDigit = false by decide)).symm,
      (ne_of_isDigit hc (show 'I'.isDigit = false by decide)).symm,
      (ne_of_isDigit hc (show '-'.isDigit = false by decide)).symm]
  · simp [word?, (ne_of_isDigit hc (show 'I'.isDigit = false by decide)).symm]

/-- A document that begins with no quote and no bracket is a word or a number. -/
theorem value_of_head {c : Char} (hquote : c ≠ '"') (hbracket : c ≠ '[') (hbrace : c ≠ '\x7b')
    (fuel position : Nat) (more : List Char)
    (hword : word? ⟨position, c :: more⟩ = none) :
    value (fuel + 1) ⟨position, c :: more⟩ = number ⟨position, c :: more⟩ := by
  rw [value.eq_def]
  simp only
  split
  case h_1 h => exact absurd (List.cons.inj h).1 hquote
  case h_2 h => exact absurd (List.cons.inj h).1 hbracket
  case h_3 h => exact absurd (List.cons.inj h).1 hbrace
  case h_4 => rw [hword]

/-- A document that begins as a number does is one. -/
theorem value_of_numberHead {cs : List Char} (h : NumberHead cs) (fuel position : Nat) :
    value (fuel + 1) ⟨position, cs⟩ = number ⟨position, cs⟩ := by
  have hword := word?_of_numberHead h position
  obtain ⟨c, more, hc, rfl | rfl⟩ := h
  · exact value_of_head (ne_of_isDigit hc (by decide)) (ne_of_isDigit hc (by decide))
      (ne_of_isDigit hc (by decide)) fuel position more hword
  · exact value_of_head (by decide) (by decide) (by decide) fuel position (c :: more) hword

/-- An integer is read as a document. -/
theorem value_int (n : Int) (hsize : (Nat.toDigits 10 n.natAbs).length ≤ maxDigits)
    {rest : List Char} (hrest : Delimited rest) (fuel position : Nat) :
    ∃ position', value (fuel + 1) ⟨position, (toString n).toList ++ rest⟩ =
      .ok (.int n, ⟨position', rest⟩) := by
  rw [value_of_numberHead ((numberHead_int n).append rest)]
  exact number_int n hsize hrest position

/-- A fraction is read as a document. -/
theorem value_float {x : Double} (hx : x.IsProper) {rest : List Char} (hrest : Delimited rest)
    (fuel position : Nat) :
    ∃ position', value (fuel + 1) ⟨position, (doubleText x).toList ++ rest⟩ =
      .ok (.float x, ⟨position', rest⟩) := by
  cases x with
  | finite negative m e =>
    simp only [doubleText]
    rw [value_of_numberHead ((numberHead_double hx negative).append rest)]
    exact number_double hx negative hrest position
  | infinite negative =>
    cases negative
    · exact ⟨position + 8, by simp [doubleText, value, word?, Cursor.advance]⟩
    · exact ⟨position + 9, by simp [doubleText, value, word?, Cursor.advance]⟩
  | nan => exact ⟨position + 3, by simp [doubleText, value, word?, Cursor.advance]⟩

/-- With this much fuel a document is read from its text, whatever may follow it. -/
def ReadWith (fuel level : Nat) (j : Json) : Prop :=
  ∀ rest, Delimited rest → ∀ position, ∃ position',
    value fuel ⟨position, indented level j ++ rest⟩ = .ok (j, ⟨position', rest⟩)

theorem delimited_newLine (level : Nat) (rest : List Char) : Delimited (newLine level ++ rest) :=
  delimited_cons (.inr rfl)

/-! ### Arrays -/

section Arrays

variable {fuel position level outer : Nat} {more rest : List Char} {x y : Json}

theorem itemsTail_last (acc : List Json) (hx : ReadWith fuel level x) :
    ∃ p, itemsTail (fuel + 1) acc ⟨position, indented level x ++ (newLine outer ++ ']' :: rest)⟩ =
      .ok (acc.reverse ++ [x], ⟨p, rest⟩) := by
  obtain ⟨after, hx⟩ := hx _ (delimited_newLine outer (']' :: rest)) position
  obtain ⟨skipped, hskip⟩ := skipSpaces_append (isSpace_newLine outer)
    (show isSpace ']' = false by decide) after rest
  rw [itemsTail, hx]
  simp only [bind, Except.bind, hskip]
  exact ⟨skipped + 1, by simp [Cursor.advance]⟩

/-- An item of an array with another one behind it. -/
theorem itemsTail_next (acc : List Json) (hx : ReadWith fuel level x) (hy : Readable y) :
    ∃ p, itemsTail (fuel + 1) acc
        ⟨position, indented level x ++ ',' :: (newLine level ++ (indented level y ++ more))⟩ =
      itemsTail fuel (x :: acc) ⟨p, indented level y ++ more⟩ := by
  obtain ⟨after, hx⟩ := hx (',' :: (newLine level ++ (indented level y ++ more)))
    (delimited_cons (.inl rfl)) position
  obtain ⟨skipped, hskip⟩ := skipSpaces_indented (isSpace_newLine level) level (after + 1) hy more
  rw [itemsTail, hx]
  simp only [bind, Except.bind, skipSpaces_cons (show isSpace ',' = false by decide),
    Cursor.advance, List.drop_succ_cons, List.drop_zero, hskip]
  exact ⟨skipped, rfl⟩

theorem value_arr {items : List Json} (hx : Readable x)
    (hitems : ∀ p, ∃ p', itemsTail fuel [] ⟨p, indented level x ++ more⟩ =
      .ok (items, ⟨p', rest⟩)) :
    ∃ p, value (fuel + 1) ⟨position, '[' :: (newLine level ++ (indented level x ++ more))⟩ =
      .ok (.arr items, ⟨p, rest⟩) := by
  obtain ⟨skipped, hskip⟩ := skipSpaces_indented (isSpace_newLine level) level (position + 1) hx
    more
  obtain ⟨p, hitems⟩ := hitems skipped
  obtain ⟨c, hhead, -, hbracket, -⟩ := head?_indented level hx
  obtain ⟨front, htext⟩ := List.head?_eq_some_iff.mp hhead
  refine ⟨p, ?_⟩
  rw [value]
  simp only [Cursor.advance, List.drop_succ_cons, List.drop_zero, hskip]
  rw [htext, List.cons_append] at hitems ⊢
  split
  case h_1 h => exact absurd (List.cons.inj h).1 hbracket
  case h_2 =>
    rw [hitems]
    rfl

end Arrays

/-! ### Objects -/

section Objects

variable {fuel position level outer : Nat} {more rest : List Char} {k : String} {v : Json}

/-- A field is read with its name, whether it is the last one or not. -/
theorem fieldsTail_field {c : Char} (acc : List (String × Json)) (hv : Readable v)
    (hread : ReadWith fuel level v) (hmore : Delimited more)
    (hskip : ∀ p, ∃ p', skipSpaces ⟨p, more⟩ = ⟨p', c :: rest⟩) :
    ∃ p, (c = '\x7d' → fieldsTail (fuel + 1) acc
        ⟨position, stringText k ++ ':' :: ' ' :: (indented level v ++ more)⟩ =
          .ok (Assoc.set k v acc, ⟨p, rest⟩)) ∧
      (c = ',' → fieldsTail (fuel + 1) acc
        ⟨position, stringText k ++ ':' :: ' ' :: (indented level v ++ more)⟩ =
          fieldsTail fuel (Assoc.set k v acc) (skipSpaces ⟨p, rest⟩)) := by
  obtain ⟨named, hkey⟩ := stringAfterQuote_text k (position + 1)
    (':' :: ' ' :: (indented level v ++ more))
  have hblank : ∀ c ∈ [' '], isSpace c = true := by simp [isSpace]
  obtain ⟨begun, hbegin⟩ := skipSpaces_indented hblank level (named + 1) hv more
  obtain ⟨after, hvalue⟩ := hread more hmore begun
  obtain ⟨skipped, hskip⟩ := hskip after
  simp only [List.cons_append, List.nil_append] at hbegin
  rw [stringText_append, fieldsTail]
  simp only [Cursor.advance, List.drop_succ_cons, List.drop_zero, hkey, bind, Except.bind,
    skipSpaces_cons (show isSpace ':' = false by decide), hbegin, hvalue, hskip]
  refine ⟨skipped + 1, ?_, ?_⟩
  · rintro rfl
    rfl
  · rintro rfl
    rfl

theorem fieldsTail_last (acc : List (String × Json)) (hv : Readable v)
    (hread : ReadWith fuel level v) :
    ∃ p, fieldsTail (fuel + 1) acc ⟨position, stringText k ++ ':' :: ' ' ::
        (indented level v ++ (newLine outer ++ '\x7d' :: rest))⟩ =
      .ok (Assoc.set k v acc, ⟨p, rest⟩) := by
  obtain ⟨p, hlast, -⟩ := fieldsTail_field acc hv hread
    (delimited_newLine outer ('\x7d' :: rest)) fun p =>
      skipSpaces_append (isSpace_newLine outer) (show isSpace '\x7d' = false by decide) p rest
  exact ⟨p, hlast rfl⟩

/-- A field of an object with another one behind it. -/
theorem fieldsTail_next {k' : String} (acc : List (String × Json)) (hv : Readable v)
    (hread : ReadWith fuel level v) :
    ∃ p, fieldsTail (fuel + 1) acc ⟨position, stringText k ++ ':' :: ' ' ::
        (indented level v ++ ',' :: (newLine level ++ (stringText k' ++ more)))⟩ =
      fieldsTail fuel (Assoc.set k v acc) ⟨p, stringText k' ++ more⟩ := by
  have hcomma : Delimited (',' :: (newLine level ++ (stringText k' ++ more))) :=
    delimited_cons (.inl rfl)
  obtain ⟨p, -, hnext⟩ := fieldsTail_field acc hv hread hcomma fun p =>
    ⟨p, skipSpaces_cons (show isSpace ',' = false by decide) p _⟩
  rw [stringText_append] at hnext ⊢
  obtain ⟨skipped, hskip⟩ := skipSpaces_append (isSpace_newLine level)
    (show isSpace '"' = false by decide) p (charsText k'.toList ++ '"' :: more)
  exact ⟨skipped, by rw [hnext rfl, stringText_append, hskip]⟩

theorem value_obj {fields : List (String × Json)}
    (hfields : ∀ p, ∃ p', fieldsTail fuel [] ⟨p, stringText k ++ more⟩ =
      .ok (fields, ⟨p', rest⟩)) :
    ∃ p, value (fuel + 1) ⟨position, '\x7b' :: (newLine level ++ (stringText k ++ more))⟩ =
      .ok (.obj fields, ⟨p, rest⟩) := by
  rw [stringText_append]
  obtain ⟨skipped, hskip⟩ := skipSpaces_append (isSpace_newLine level)
    (show isSpace '"' = false by decide) (position + 1) (charsText k.toList ++ '"' :: more)
  obtain ⟨p, hfields⟩ := hfields skipped
  rw [stringText_append] at hfields
  refine ⟨p, ?_⟩
  rw [value]
  simp only [Cursor.advance, List.drop_succ_cons, List.drop_zero, hskip, hfields]
  rfl

end Objects

theorem indented_arr (level : Nat) (x : Json) (xs : List Json) (rest : List Char) :
    indented level (.arr (x :: xs)) ++ rest =
      '[' :: (newLine (level + 1) ++ (indented (level + 1) x ++
        (indentedItems (level + 1) xs ++ (newLine level ++ ']' :: rest)))) := by
  simp [indented]

theorem indented_obj (level : Nat) (k : String) (v : Json) (fields : List (String × Json))
    (rest : List Char) :
    indented level (.obj ((k, v) :: fields)) ++ rest =
      '\x7b' :: (newLine (level + 1) ++ (stringText k ++ ':' :: ' ' :: (indented (level + 1) v ++
        (indentedFields (level + 1) fields ++ (newLine level ++ '\x7d' :: rest))))) := by
  simp [indented]

theorem indentedItems_cons (level : Nat) (y : Json) (ys : List Json) (rest : List Char) :
    indentedItems level (y :: ys) ++ rest =
      ',' :: (newLine level ++ (indented level y ++ (indentedItems level ys ++ rest))) := by
  simp [indentedItems]

theorem indentedFields_cons (level : Nat) (k : String) (v : Json) (fields : List (String × Json))
    (rest : List Char) :
    indentedFields level ((k, v) :: fields) ++ rest =
      ',' :: (newLine level ++ (stringText k ++ ':' :: ' ' ::
        (indented level v ++ (indentedFields level fields ++ rest)))) := by
  simp [indentedFields]

theorem set_of_nodup {k : String} {v : Json} {acc fields : List (String × Json)}
    (h : (Assoc.keys (acc ++ (k, v) :: fields)).Nodup) : Assoc.set k v acc = acc ++ [(k, v)] := by
  have hnew : k ∉ Assoc.keys acc := by
    intro hk
    simp only [Assoc.keys, List.map_append, List.map_cons] at h
    exact (List.nodup_append.mp h).2.2 k hk k List.mem_cons_self rfl
  exact Assoc.set_of_not_has (by simpa [← Assoc.has_iff_mem_keys] using hnew) v

theorem exists_fuel {text : List Char} {fuel : Nat} (h : text.length ≤ fuel) (hne : text ≠ []) :
    ∃ fuel', fuel = fuel' + 1 :=
  Nat.exists_eq_add_one_of_ne_zero
    (Nat.ne_of_gt (Nat.lt_of_lt_of_le (List.length_pos_iff.mpr hne) h))

-- The induction is on how a document is written.  The items after the first are read together with
-- the one before them, since that is how the reader goes through an array; so are the fields.
/-- A document is read with as much fuel as its text is long; so are the items of an array and the
fields of an object. -/
theorem readWith_all :
    (∀ (level : Nat) (j : Json), Readable j → ∀ fuel, (indented level j).length ≤ fuel →
      ReadWith fuel level j) ∧
    (∀ (level : Nat) (fields : List (String × Json)), ReadableFields fields →
      ∀ outer fuel position acc k v rest, Readable v → ReadWith fuel level v →
        (indentedFields level fields).length ≤ fuel →
        (Assoc.keys (acc ++ (k, v) :: fields)).Nodup →
        ∃ p, fieldsTail (fuel + 1) acc ⟨position, stringText k ++ ':' :: ' ' ::
            (indented level v ++ (indentedFields level fields ++
              (newLine outer ++ '\x7d' :: rest)))⟩ =
          .ok (acc ++ (k, v) :: fields, ⟨p, rest⟩)) ∧
    (∀ (level : Nat) (items : List Json), ReadableItems items →
      ∀ outer fuel position acc x rest, ReadWith fuel level x →
        (indentedItems level items).length ≤ fuel →
        ∃ p, itemsTail (fuel + 1) acc ⟨position, indented level x ++
            (indentedItems level items ++ (newLine outer ++ ']' :: rest))⟩ =
          .ok (acc.reverse ++ x :: items, ⟨p, rest⟩)) := by
  refine indented.mutual_induct _ _ _ ?null ?bool ?int ?float ?str ?noItems ?array ?noFields ?object
    ?lastItem ?nextItem ?lastField ?nextField
  case null =>
    intro level _ fuel hfuel rest _ position
    obtain ⟨fuel, rfl⟩ := exists_fuel hfuel (by simp [indented])
    exact ⟨position + 4, by simp [indented, value, word?, Cursor.advance]⟩
  case bool =>
    intro level b _ fuel hfuel rest _ position
    obtain ⟨fuel, rfl⟩ := exists_fuel hfuel (by cases b <;> simp [indented])
    cases b
    · exact ⟨position + 5, by simp [indented, value, word?, Cursor.advance]⟩
    · exact ⟨position + 4, by simp [indented, value, word?, Cursor.advance]⟩
  case int =>
    intro level n h fuel hfuel rest hrest position
    obtain ⟨c, hhead, -⟩ := head?_indented level h
    obtain ⟨fuel, rfl⟩ := exists_fuel hfuel (by rintro hnil; simp [hnil] at hhead)
    rw [indented]
    exact value_int n h hrest fuel position
  case float =>
    intro level x h fuel hfuel rest hrest position
    obtain ⟨c, hhead, -⟩ := head?_indented level h
    obtain ⟨fuel, rfl⟩ := exists_fuel hfuel (by rintro hnil; simp [hnil] at hhead)
    rw [indented]
    exact value_float h hrest fuel position
  case str =>
    intro level s _ fuel hfuel rest _ position
    obtain ⟨fuel, rfl⟩ := exists_fuel hfuel (by simp [indented, stringText])
    rw [indented]
    exact value_str s fuel position rest
  case noItems =>
    intro level _ fuel hfuel rest _ position
    obtain ⟨fuel, rfl⟩ := exists_fuel hfuel (by simp [indented])
    exact ⟨position + 2, by
      simp [indented, value, Cursor.advance, skipSpaces_cons (show isSpace ']' = false by decide)]⟩
  case array =>
    intro level x items ihx ihitems h fuel hfuel rest _ position
    rw [Readable, ReadableItems] at h
    simp only [indented, List.length_append, List.length_cons, List.length_nil] at hfuel
    obtain ⟨fuel, rfl⟩ : ∃ fuel', fuel = fuel' + 2 := ⟨fuel - 2, by omega⟩
    have hx := ihx h.1 fuel (by omega)
    rw [indented_arr]
    exact value_arr h.1 fun p => ihitems h.2 level fuel p [] x rest hx (by omega)
  case noFields =>
    intro level _ fuel hfuel rest _ position
    obtain ⟨fuel, rfl⟩ := exists_fuel hfuel (by simp [indented])
    exact ⟨position + 2, by
      simp [indented, value, Cursor.advance,
        skipSpaces_cons (show isSpace '\x7d' = false by decide)]⟩
  case object =>
    intro level k v fields ihv ihfields h fuel hfuel rest _ position
    rw [Readable, ReadableFields] at h
    simp only [indented, List.length_append, List.length_cons, List.length_nil] at hfuel
    obtain ⟨fuel, rfl⟩ : ∃ fuel', fuel = fuel' + 2 := ⟨fuel - 2, by omega⟩
    have hv := ihv h.2.1 fuel (by omega)
    rw [indented_obj]
    exact value_obj fun p => ihfields h.2.2 level fuel p [] k v rest h.2.1 hv (by omega) h.1
  case lastItem =>
    intro level _ outer fuel position acc x rest hx _
    rw [indentedItems, List.nil_append]
    exact itemsTail_last acc hx
  case nextItem =>
    intro level y items ihy ihitems h outer fuel position acc x rest hx hfuel
    rw [ReadableItems] at h
    simp only [indentedItems, List.length_append, List.length_cons] at hfuel
    obtain ⟨fuel, rfl⟩ : ∃ fuel', fuel = fuel' + 1 := ⟨fuel - 1, by omega⟩
    have hy := ihy h.1 fuel (by omega)
    rw [indentedItems_cons]
    obtain ⟨p, hnext⟩ := itemsTail_next acc hx h.1
    obtain ⟨p', hitems⟩ := ihitems h.2 outer fuel p (x :: acc) y rest hy (by omega)
    rw [hnext, hitems]
    exact ⟨p', by simp⟩
  case lastField =>
    intro level _ outer fuel position acc k v rest hv hread _ hkeys
    rw [indentedFields, List.nil_append, ← set_of_nodup hkeys]
    exact fieldsTail_last acc hv hread
  case nextField =>
    intro level k' v' fields ihv ihfields h outer fuel position acc k v rest hv hread hfuel hkeys
    rw [ReadableFields] at h
    simp only [indentedFields, List.length_append, List.length_cons] at hfuel
    obtain ⟨fuel, rfl⟩ : ∃ fuel', fuel = fuel' + 1 := ⟨fuel - 1, by omega⟩
    have hv' := ihv h.1 fuel (by omega)
    rw [indentedFields_cons]
    obtain ⟨p, hnext⟩ := fieldsTail_next acc hv hread
    rw [hnext, set_of_nodup hkeys]
    obtain ⟨p', hfields⟩ := ihfields h.2 outer fuel p (acc ++ [(k, v)]) k' v' rest h.1 hv'
      (by omega) (by simpa using hkeys)
    rw [hfields]
    exact ⟨p', by simp⟩

/-! ## The characters of a document -/

/-- Whether characters are printable ASCII or line feeds. -/
def Plain (cs : List Char) : Prop := ∀ c ∈ cs, c = '\n' ∨ 32 ≤ c.toNat ∧ c.toNat < 127

@[simp] theorem plain_nil : Plain [] := by simp [Plain]

@[simp] theorem plain_cons {c : Char} {cs : List Char} :
    Plain (c :: cs) ↔ (c = '\n' ∨ 32 ≤ c.toNat ∧ c.toNat < 127) ∧ Plain cs :=
  List.forall_mem_cons

@[simp] theorem plain_append {cs ds : List Char} : Plain (cs ++ ds) ↔ Plain cs ∧ Plain ds :=
  List.forall_mem_append

theorem plain_newLine (level : Nat) : Plain (newLine level) := by
  intro c hc
  rcases List.mem_cons.mp hc with rfl | hc
  · exact .inl rfl
  · rw [List.eq_of_mem_replicate hc]
    exact .inr (by decide)

theorem plain_unitEscape {n : Nat} (h : n < 0x10000) : Plain (unitEscape n) := by
  have hdigit : ∀ d < 16, 32 ≤ (Nat.digitChar d).toNat ∧ (Nat.digitChar d).toNat < 127 := by decide
  rw [unitEscape, hexPadded_four h]
  simp only [plain_cons, plain_nil, and_true]
  exact ⟨.inr (by decide), .inr (by decide), .inr (hdigit _ (by omega)), .inr (hdigit _ (by omega)),
    .inr (hdigit _ (by omega)), .inr (hdigit _ (by omega))⟩

theorem plain_charText (c : Char) : Plain (charText c) := by
  have hrange := Text.char_range c
  unfold charText
  split_ifs with h₁ h₂ h₃ h₄ h₅ h₆ h₇ h₈ h₉
  case pos => simp
  case pos => simp
  case pos => simp
  case pos => simp
  case pos => simp
  case pos => simp
  case pos => simp
  case pos => simpa using .inr h₈
  case pos => exact plain_unitEscape h₉
  case neg => exact plain_append.mpr ⟨plain_unitEscape (by omega), plain_unitEscape (by omega)⟩

theorem plain_charsText (cs : List Char) : Plain (charsText cs) := by
  fun_induction charsText cs with
  | case1 => simp [Plain]
  | case2 c => exact plain_charText c
  | case3 c d more n hhalf hlow ih | case5 c d more hhalf ih =>
    exact plain_append.mpr ⟨plain_charText c, ih⟩
  | case4 c d more n hhalf hlow ih =>
    have hn := (half?_eq_some hhalf).1
    exact plain_append.mpr ⟨plain_unitEscape (by omega), ih⟩

theorem plain_stringText (s : String) : Plain (stringText s) := by
  have hchars := plain_charsText s.toList
  simp [stringText, hchars]

theorem plain_of_isDigit {c : Char} (h : c.isDigit = true) :
    c = '\n' ∨ 32 ≤ c.toNat ∧ c.toNat < 127 := by
  simp only [Char.isDigit, Bool.and_eq_true, decide_eq_true_eq] at h
  have hlow : 48 ≤ c.toNat := h.1
  have hhigh : c.toNat ≤ 57 := h.2
  exact .inr (by omega)

theorem plain_double {x : Double} (h : x.IsProper) : Plain (doubleText x).toList := by
  cases x with
  | finite negative m e =>
    intro c hc
    rcases mem_text_double h negative c hc with hdigit | hmark
    · exact plain_of_isDigit hdigit
    · simp only [List.mem_cons, List.not_mem_nil, or_false] at hmark
      rcases hmark with rfl | rfl | rfl | rfl <;> decide
  | infinite negative => cases negative <;> simp [doubleText]
  | nan => simp [doubleText]

theorem plain_int (n : Int) : Plain (toString n).toList := by
  have hdigits : ∀ n, Plain (Nat.toDigits 10 n) := fun n c hc =>
    plain_of_isDigit (Nat.isDigit_of_mem_toDigits (by omega) (by omega) hc)
  cases n with
  | ofNat n =>
    rw [toList_ofNat]
    exact hdigits n
  | negSucc n =>
    rw [toList_negSucc]
    simp [hdigits]

/-- The text of a document is printable ASCII on its lines. -/
theorem plain_all :
    (∀ (level : Nat) (j : Json), Readable j → Plain (indented level j)) ∧
    (∀ (level : Nat) (fields : List (String × Json)), ReadableFields fields →
      Plain (indentedFields level fields)) ∧
    (∀ (level : Nat) (items : List Json), ReadableItems items →
      Plain (indentedItems level items)) := by
  refine indented.mutual_induct _ _ _ ?null ?bool ?int ?float ?str ?noItems ?array ?noFields ?object
    ?lastItem ?nextItem ?lastField ?nextField
  case null => simp [indented]
  case bool =>
    intro level b _
    cases b <;> simp [indented]
  case int =>
    intro level n _
    rw [indented]
    exact plain_int n
  case float =>
    intro level x h
    rw [indented]
    exact plain_double h
  case str =>
    intro level s _
    rw [indented]
    exact plain_stringText s
  case noItems => simp [indented]
  case array =>
    intro level x items ihx ihitems h
    rw [Readable, ReadableItems] at h
    simp [indented, plain_newLine, ihx h.1, ihitems h.2]
  case noFields => simp [indented]
  case object =>
    intro level k v fields ihv ihfields h
    rw [Readable, ReadableFields] at h
    simp [indented, plain_newLine, plain_stringText, ihv h.2.1, ihfields h.2.2]
  case lastItem => simp [indentedItems]
  case nextItem =>
    intro level y items ihy ihitems h
    rw [ReadableItems] at h
    simp [indentedItems, plain_newLine, ihy h.1, ihitems h.2]
  case lastField => simp [indentedFields]
  case nextField =>
    intro level k v fields ihv ihfields h
    rw [ReadableFields] at h
    simp [indentedFields, plain_newLine, plain_stringText, ihv h.1, ihfields h.2]

theorem plain_pretty {j : Json} (h : Readable j) : Plain (pretty j).toList := by
  rw [pretty, String.toList_ofList]
  exact plain_all.1 0 j h

/-! ## Documents that do not break off -/

theorem isTooLong_eq_false_iff {n : Int} :
    isTooLong n = false ↔ (Nat.toDigits 10 n.natAbs).length ≤ maxDigits := by
  have hlimit : maxWrittenDigits = maxDigits := rfl
  rw [Nat.length_toDigits_le_iff (by omega) (by decide), isTooLong, Nat.pow_eq, hlimit,
    decide_eq_false_iff_not, Nat.not_le]

theorem brokenItems?_cons {level : Nat} {x : Json} (h : brokenOff? (level + 1) x = none)
    (isFirst : Bool) (xs : List Json) (hxs : brokenItems? level false xs = none) :
    brokenItems? level isFirst (x :: xs) = none := by
  rw [brokenItems?.eq_def]
  dsimp only
  split <;> simp_all

theorem brokenOff?_all :
    (∀ (_ : Nat) (j : Json), Readable j → ∀ level, brokenOff? level j = none) ∧
    (∀ (_ : Nat) (fields : List (String × Json)), ReadableFields fields →
      ∀ level isFirst, brokenFields? level isFirst fields = none) ∧
    (∀ (_ : Nat) (items : List Json), ReadableItems items →
      ∀ level isFirst, brokenItems? level isFirst items = none) := by
  have hnil : ∀ level isFirst, brokenItems? level isFirst [] = none := fun level isFirst => by
    rw [brokenItems?.eq_def]
  refine indented.mutual_induct _ _ _ ?null ?bool ?int ?float ?str ?noItems ?array ?noFields ?object
    ?lastItem ?nextItem ?lastField ?nextField
  case int =>
    intro _ n h level
    rw [brokenOff?, isTooLong_eq_false_iff.mpr h]
    rfl
  case array =>
    intro _ x items ihx ihitems h level
    rw [brokenOff?, brokenItems?_cons (ihx h.1 _) _ _ (ihitems h.2 _ _)]
  case object =>
    intro _ k v fields ihv ihfields h level
    rw [brokenOff?, brokenFields?, ihv h.2.1, ihfields h.2.2]
    rfl
  case nextItem =>
    intro _ y items ihy ihitems h level isFirst
    exact brokenItems?_cons (ihy h.1 _) _ _ (ihitems h.2 _ _)
  case nextField =>
    intro _ k v fields ihv ihfields h level isFirst
    rw [brokenFields?, ihv h.1, ihfields h.2]
    rfl
  all_goals simp [brokenOff?, brokenFields?, hnil]

/-- A document that is read as it was written is written as a whole. -/
theorem brokenOff?_of_readable {j : Json} (h : Readable j) : brokenOff? 0 j = none :=
  brokenOff?_all.1 0 j h 0

/-! ## Documents in files -/

theorem parse_pretty {j : Json} (h : Readable j) : parse (pretty j) = .ok j := by
  obtain ⟨c, hhead, hspace, -⟩ := head?_indented 0 h
  obtain ⟨more, htext⟩ := List.head?_eq_some_iff.mp hhead
  have hskip : skipSpaces ⟨0, indented 0 j⟩ = ⟨0, indented 0 j⟩ := by
    rw [htext]
    exact skipSpaces_cons hspace 0 more
  have hmark : ((indented 0 j).head? == some '\ufeff') = false := by
    have hplain := plain_all.1 0 j h c (by simp [htext])
    rw [hhead]
    simp only [beq_eq_false_iff_ne, ne_eq, Option.some.injEq]
    rintro rfl
    exact absurd hplain (by decide)
  obtain ⟨p, hvalue⟩ := readWith_all.1 0 j h (2 * (indented 0 j).length + 2) (by omega) []
    (by simp [Delimited]) 0
  rw [List.append_nil] at hvalue
  simp only [parse, pretty, String.toList_ofList, hmark, hskip, hvalue, bind, Except.bind]
  rfl

/-- The text of a document has no returns, so it is read from its bytes. -/
theorem not_mem_pretty {j : Json} (h : Readable j) : '\r' ∉ (pretty j).toList := by
  intro hreturn
  have hplain := plain_pretty h _ hreturn
  exact absurd hplain (by decide)

end ContractKit.Json
