import Receipt.Proofs.Json.Number
import Receipt.Proofs.Json.Reader
import Receipt.Proofs.Json.Text

/-!
# Written JSON is read

A value that has no fault is read again from the line that it is written as, `exists_read?_write`: the
limit on digits is one for both. What the induction carries is `IsRead`: a text is read as a value
wherever a comma, a closing bracket or nothing comes after it.
-/
namespace Receipt.Json

open Number

/-- Whether a value may start with the character. -/
def isLead (c : Char) : Bool := !Cursor.isSpace c && c != ']' && c != '\uFEFF'

/-- Whether a value that is no string, list or map may start with the character. -/
def isBare (c : Char) : Bool := isLead c && c != '"' && c != '[' && c != '\x7b'

/-- A text that starts where blanks end, and that is read as one value before what may end it. -/
structure IsRead (text : List Char) : Prop where
  start : ∃ c cs, text = c :: cs ∧ isLead c = true
  read : ∀ {fuel : Nat} {rest : List Char} (p : Nat), text.length < fuel → Ends rest →
    ∃ v q, readValue fuel ⟨p, text ++ rest⟩ = .ok (v, ⟨q, rest⟩)

theorem isSpace_of_isLead {c : Char} (h : isLead c = true) : Cursor.isSpace c = false := by
  simp only [isLead, Bool.and_eq_true, Bool.not_eq_true'] at h
  exact h.1.1

theorem skipSpace_cons {p : Nat} {c : Char} (hc : Cursor.isSpace c = false) (cs : List Char) :
    Cursor.skipSpace ⟨p, c :: cs⟩ = ⟨p, c :: cs⟩ := by
  rw [Cursor.skipSpace, List.takeWhile_cons_of_neg (by simp [hc])]
  rfl

theorem skipSpace_blank {p : Nat} {c : Char} (hc : Cursor.isSpace c = false) (cs : List Char) :
    Cursor.skipSpace ⟨p, ' ' :: c :: cs⟩ = ⟨p + 1, c :: cs⟩ := by
  rw [Cursor.skipSpace, List.takeWhile_cons_of_pos rfl,
    List.takeWhile_cons_of_neg (by simp [hc])]
  rfl

theorem Ends.skipSpace {rest : List Char} (h : Ends rest) (p : Nat) :
    Cursor.skipSpace ⟨p, rest⟩ = ⟨p, rest⟩ := by
  cases rest with
  | nil => rfl
  | cons c cs =>
      refine skipSpace_cons ?_ cs
      rcases h c rfl with rfl | rfl | rfl <;> rfl

section Scalars

variable {fuel p n : Nat} {c : Char} {cs : List Char} {v : Value}

theorem readValue_of_word (hc : isBare c = true) (h : readWord? (c :: cs) = some (v, n)) :
    readValue (fuel + 1) ⟨p, c :: cs⟩ = .ok (v, Cursor.advance ⟨p, c :: cs⟩ n) := by
  simp only [isBare, Bool.and_eq_true, bne_iff_ne] at hc
  rw [readValue]
  split
  · next heq => exact absurd (List.cons.inj heq).1 hc.1.1.2
  · next heq => exact absurd (List.cons.inj heq).1 hc.1.2
  · next heq => exact absurd (List.cons.inj heq).1 hc.2
  · simp only [h]

theorem readValue_of_number (hc : isBare c = true) (hword : readWord? (c :: cs) = none)
    (h : readNumber (c :: cs) = .ok (v, n)) :
    readValue (fuel + 1) ⟨p, c :: cs⟩ = .ok (v, Cursor.advance ⟨p, c :: cs⟩ n) := by
  simp only [isBare, Bool.and_eq_true, bne_iff_ne] at hc
  rw [readValue]
  split
  · next heq => exact absurd (List.cons.inj heq).1 hc.1.1.2
  · next heq => exact absurd (List.cons.inj heq).1 hc.1.2
  · next heq => exact absurd (List.cons.inj heq).1 hc.2
  · simp only [hword, h]

theorem isLead_of_isBare (h : isBare c = true) : isLead c = true := by
  simp only [isBare, Bool.and_eq_true] at h
  exact h.1.1.1

theorem isRead_of_word (hc : isBare c = true)
    (hword : ∀ rest, ∃ v, readWord? (c :: cs ++ rest) = some (v, (c :: cs).length)) :
    IsRead (c :: cs) := by
  refine ⟨⟨c, cs, rfl, isLead_of_isBare hc⟩, fun {fuel rest} p hfuel _ => ?_⟩
  obtain ⟨fuel, rfl⟩ := Nat.exists_eq_succ_of_ne_zero (Nat.ne_zero_of_lt hfuel)
  obtain ⟨v, hv⟩ := hword rest
  refine ⟨v, p + (c :: cs).length, ?_⟩
  rw [List.cons_append] at hv ⊢
  rw [readValue_of_word hc hv, ← List.cons_append, advance_append]

/-- Every word is read as the value that it stands for. -/
theorem isRead_word : ∀ name ∈ wordValues.map Prod.fst, IsRead name.toList := by
  intro name hname
  simp only [wordValues, List.map_cons, List.map_nil, List.mem_cons, List.not_mem_nil,
    or_false] at hname
  rcases hname with rfl | rfl | rfl | rfl | rfl | rfl
  all_goals exact isRead_of_word (by decide) fun _ => ⟨_, rfl⟩

theorem isBare_of_isDigit (h : c.isDigit = true) : isBare c = true := by
  have hne (d : Char) (hd : d.isDigit = false) : (c == d) = false :=
    beq_false_of_ne (ne_of_isDigit h hd)
  have hspace : Cursor.isSpace c = false := by
    have hblank (d : Char) (hd : d.isDigit = false) : decide (c = d) = false :=
      decide_eq_false (ne_of_isDigit h hd)
    simp only [Cursor.isSpace, hblank ' ' rfl, hblank '\t' rfl, hblank '\n' rfl, hblank '\r' rfl,
      Bool.or_false]
  simp only [isBare, isLead, hspace, bne, hne ']' rfl, hne '\uFEFF' rfl, hne '"' rfl, hne '[' rfl,
    hne '\x7b' rfl]
  rfl

/-- No word starts like a numeral. -/
theorem readWord?_text {t : Numeral} (h : t.WellFormed) (rest : List Char) :
    readWord? (t.text ++ rest) = none := by
  obtain ⟨c, cs, hwhole, hc⟩ := h.exists_digit
  have hne (d : Char) (hd : d.isDigit = false) : (d == c) = false :=
    beq_false_of_ne (ne_of_isDigit hc hd).symm
  rw [Numeral.text, Numeral.sign, hwhole]
  cases t.negative with
  | true =>
      simp [readWord?, wordValues, List.isPrefixOf, hne 'I' rfl]
  | false =>
      simp [readWord?, wordValues, List.isPrefixOf, hne 'n' rfl, hne 't' rfl, hne 'f' rfl,
        hne 'N' rfl, hne 'I' rfl, hne '-' rfl]

theorem isRead_numeral {t : Numeral} (h : t.WellFormed)
    (hlength : t.IsWhole → t.whole.length ≤ digitLimit) : IsRead t.text := by
  have hstart : ∃ c cs, t.text = c :: cs ∧ isBare c = true := by
    obtain ⟨c, cs, hwhole, hc⟩ := h.exists_digit
    rw [Numeral.text, Numeral.sign, hwhole]
    cases t.negative with
    | true => exact ⟨'-', _, rfl, by decide⟩
    | false => exact ⟨c, _, rfl, isBare_of_isDigit hc⟩
  obtain ⟨c, cs, htext, hc⟩ := hstart
  refine ⟨⟨c, cs, htext, isLead_of_isBare hc⟩, fun {fuel rest} p hfuel hrest => ?_⟩
  obtain ⟨fuel, rfl⟩ := Nat.exists_eq_succ_of_ne_zero (Nat.ne_zero_of_lt hfuel)
  obtain ⟨v, hv⟩ := readNumber_text h hlength hrest
  have hword := readWord?_text h rest
  refine ⟨v, p + t.text.length, ?_⟩
  have hread : readValue (fuel + 1) ⟨p, t.text ++ rest⟩ =
      .ok (v, Cursor.advance ⟨p, t.text ++ rest⟩ t.text.length) := by
    rw [htext, List.cons_append] at hv hword ⊢
    exact readValue_of_number hc hword hv
  rw [hread, advance_append]

end Scalars

/-- A string as it is written. -/
def quoted (s : String) : List Char := '"' :: (s.toList.flatMap (escape true) ++ ['"'])

theorem isRead_quoted (s : String) : IsRead (quoted s) := by
  refine ⟨⟨'"', _, rfl, by decide⟩, fun {fuel rest} p hfuel _ => ?_⟩
  obtain ⟨fuel, rfl⟩ := Nat.exists_eq_succ_of_ne_zero (Nat.ne_zero_of_lt hfuel)
  have hescaped := length_le_escaped s.toList
  have hlength : s.toList.length < fuel := by
    simp only [quoted, List.length_cons, List.length_append] at hfuel
    omega
  obtain ⟨q, hq⟩ := readString_escaped p s.toList rest hlength [] (p + 1)
  refine ⟨.text (String.ofList s.toList), q, ?_⟩
  have htext : quoted s ++ rest = '"' :: (s.toList.flatMap (escape true) ++ '"' :: rest) := by
    simp [quoted]
  rw [htext, readValue]
  simp only [Cursor.advance, List.drop_succ_cons, List.drop_zero, hq]
  rfl

section Joined

theorem toList_joined_cons (s t : String) (more : List String) :
    (joined ", " (s :: t :: more)).toList =
      s.toList ++ ',' :: ' ' :: (joined ", " (t :: more)).toList := by
  simp [joined]

/-- Parts with commas between start as the first of them. -/
theorem exists_lead_joined {s : String} {c : Char} {cs : List Char} (h : s.toList = c :: cs)
    (more : List String) : ∃ ds, (joined ", " (s :: more)).toList = c :: ds := by
  cases more with
  | nil => exact ⟨cs, h⟩
  | cons t more => exact ⟨_, by rw [toList_joined_cons, h, List.cons_append]⟩

/-- An item is read, and then what comes after it decides. -/
theorem readItems_item {text : List Char} (h : IsRead text) {fuel : Nat}
    (hfuel : text.length < fuel) (p : Nat) {tail : List Char} (htail : Ends tail) :
    ∃ v q, readItems (fuel + 1) ⟨p, text ++ tail⟩ =
      match tail.head? with
      | some ']' => .ok ([v], Cursor.advance ⟨q, tail⟩ 1)
      | some ',' =>
        (readItems fuel (Cursor.advance ⟨q, tail⟩ 1).skipSpace).map fun r => (v :: r.1, r.2)
      | _ => .error (.noComma, q) := by
  obtain ⟨v, q, hv⟩ := h.read p hfuel htail
  refine ⟨v, q, ?_⟩
  rw [readItems, hv]
  show (match (Cursor.skipSpace ⟨q, tail⟩).rest.head? with
    | some ']' => _
    | some ',' => _
    | _ => _) = _
  rw [htail.skipSpace]
  cases tail with
  | nil => rfl
  | cons c tail =>
      rcases htail c rfl with rfl | rfl | rfl
      · simp only [List.head?_cons]
        cases readItems fuel (Cursor.advance ⟨q, ',' :: tail⟩ 1).skipSpace <;> rfl
      · rfl
      · rfl

theorem ends_cons {c : Char} (h : c = ',' ∨ c = ']' ∨ c = '\x7d') (cs : List Char) :
    Ends (c :: cs) := by
  intro d hd
  cases hd
  exact h

/-- Behind a comma and a blank the next part stands. -/
theorem skipSpace_next {s : String} {c : Char} {cs : List Char} (hs : s.toList = c :: cs)
    (hlead : isLead c = true) (more : List String) (rest : List Char) (q : Nat) :
    (Cursor.advance ⟨q, ',' :: ' ' :: ((joined ", " (s :: more)).toList ++ rest)⟩ 1).skipSpace =
      ⟨q + 1 + 1, (joined ", " (s :: more)).toList ++ rest⟩ := by
  obtain ⟨ds, hds⟩ := exists_lead_joined hs more
  rw [hds]
  exact skipSpace_blank (isSpace_of_isLead hlead) _

theorem readItems_joined {parts : List String} (hne : parts ≠ [])
    (h : ∀ s ∈ parts, IsRead s.toList) {fuel : Nat}
    (hfuel : (joined ", " parts).toList.length + 1 < fuel) (p : Nat) (rest : List Char) :
    ∃ vs q, readItems fuel ⟨p, (joined ", " parts).toList ++ ']' :: rest⟩ =
      .ok (vs, ⟨q, rest⟩) := by
  induction parts generalizing fuel p with
  | nil => exact absurd rfl hne
  | cons s more ih =>
      obtain ⟨fuel, rfl⟩ := Nat.exists_eq_succ_of_ne_zero (Nat.ne_zero_of_lt hfuel)
      have hs := h s List.mem_cons_self
      cases more with
      | nil =>
          obtain ⟨v, q, hread⟩ := readItems_item hs (Nat.lt_of_succ_lt_succ hfuel) p
            (ends_cons (.inr (.inl rfl)) rest)
          exact ⟨[v], q + 1, hread⟩
      | cons t more =>
          rw [toList_joined_cons, List.length_append, List.length_cons, List.length_cons] at hfuel
          obtain ⟨c, cs, ht, hlead⟩ := (h t (List.mem_cons_of_mem _ List.mem_cons_self)).start
          have htext : (joined ", " (s :: t :: more)).toList ++ ']' :: rest =
              s.toList ++ ',' :: ' ' :: ((joined ", " (t :: more)).toList ++ ']' :: rest) := by
            rw [toList_joined_cons]
            simp
          obtain ⟨v, q, hread⟩ := readItems_item hs (show s.toList.length < fuel by omega) p
            (ends_cons (.inl rfl) (' ' :: ((joined ", " (t :: more)).toList ++ ']' :: rest)))
          obtain ⟨vs, q', hvs⟩ := ih nofun (fun u hu => h u (List.mem_cons_of_mem _ hu))
            (show (joined ", " (t :: more)).toList.length + 1 < fuel by omega) (q + 1 + 1)
          refine ⟨v :: vs, q', ?_⟩
          rw [htext, hread]
          simp only [List.head?_cons]
          rw [skipSpace_next ht hlead, hvs]
          rfl

/-- A member whose value is written already. -/
def memberText (m : String × String) : String := string true m.1 ++ ": " ++ m.2

theorem toList_memberText (m : String × String) :
    (memberText m).toList =
      '"' :: (m.1.toList.flatMap (escape true) ++ '"' :: ':' :: ' ' :: m.2.toList) := by
  simp [memberText, string]

/-- A member is read, and then what comes after it decides. -/
theorem readMembers_member {m : String × String} (h : IsRead m.2.toList) {fuel : Nat}
    (hfuel : (memberText m).toList.length < fuel) (p : Nat) {tail : List Char} (htail : Ends tail) :
    ∃ v q, readMembers (fuel + 1) ⟨p, (memberText m).toList ++ tail⟩ =
      match tail.head? with
      | some '\x7d' => .ok ([(.text m.1, v)], Cursor.advance ⟨q, tail⟩ 1)
      | some ',' =>
        (readMembers fuel (Cursor.advance ⟨q, tail⟩ 1).skipSpace).map fun r =>
          ((.text m.1, v) :: r.1, r.2)
      | _ => .error (.noComma, q) := by
  have hescaped := length_le_escaped m.1.toList
  rw [toList_memberText] at hfuel ⊢
  simp only [List.length_cons, List.length_append] at hfuel
  obtain ⟨c, cs, hvalue, hlead⟩ := h.start
  obtain ⟨q, hname⟩ := readString_escaped p m.1.toList (':' :: ' ' :: (m.2.toList ++ tail))
    (show m.1.toList.length < fuel by omega) [] (p + 1)
  rw [List.reverse_nil, List.nil_append, String.ofList_toList] at hname
  obtain ⟨v, q', hv⟩ := h.read (q + 1 + 1) (show m.2.toList.length < fuel by omega) htail
  have hblank : Cursor.skipSpace ⟨q + 1, ' ' :: (m.2.toList ++ tail)⟩ =
      ⟨q + 1 + 1, m.2.toList ++ tail⟩ := by
    rw [hvalue]
    exact skipSpace_blank (isSpace_of_isLead hlead) _
  have hquote : (m.1.toList.flatMap (escape true) ++ '"' :: ':' :: ' ' :: m.2.toList) ++ tail =
      m.1.toList.flatMap (escape true) ++ '"' :: ':' :: ' ' :: (m.2.toList ++ tail) := by
    simp
  refine ⟨v, q', ?_⟩
  rw [List.cons_append, hquote, readMembers]
  show Except.bind (readString p fuel [] ⟨p + 1,
    m.1.toList.flatMap (escape true) ++ '"' :: ':' :: ' ' :: (m.2.toList ++ tail)⟩) _ = _
  rw [hname]
  show Except.bind (readValue fuel (Cursor.skipSpace ⟨q + 1, ' ' :: (m.2.toList ++ tail)⟩)) _ = _
  rw [hblank, hv]
  simp only [Except.bind, htail.skipSpace]
  cases tail with
  | nil => rfl
  | cons c tail =>
      rcases htail c rfl with rfl | rfl | rfl
      · simp only [List.head?_cons]
        cases readMembers fuel (Cursor.advance ⟨q', ',' :: tail⟩ 1).skipSpace with
        | error e => rfl
        | ok r => rfl
      · rfl
      · rfl

theorem readMembers_joined {ms : List (String × String)} (hne : ms ≠ [])
    (h : ∀ m ∈ ms, IsRead m.2.toList) {fuel : Nat}
    (hfuel : (joined ", " (ms.map memberText)).toList.length + 1 < fuel) (p : Nat)
    (rest : List Char) :
    ∃ vs q, readMembers fuel ⟨p, (joined ", " (ms.map memberText)).toList ++ '\x7d' :: rest⟩ =
      .ok (vs, ⟨q, rest⟩) := by
  induction ms generalizing fuel p with
  | nil => exact absurd rfl hne
  | cons m more ih =>
      obtain ⟨fuel, rfl⟩ := Nat.exists_eq_succ_of_ne_zero (Nat.ne_zero_of_lt hfuel)
      have hm := h m List.mem_cons_self
      cases more with
      | nil =>
          obtain ⟨v, q, hread⟩ := readMembers_member hm (Nat.lt_of_succ_lt_succ hfuel) p
            (ends_cons (.inr (.inr rfl)) rest)
          exact ⟨[(.text m.1, v)], q + 1, hread⟩
      | cons m' more =>
          rw [List.map_cons, List.map_cons, toList_joined_cons, List.length_append,
            List.length_cons, List.length_cons, ← List.map_cons] at hfuel
          have htext : (joined ", " ((m :: m' :: more).map memberText)).toList ++ '\x7d' :: rest =
              (memberText m).toList ++ ',' :: ' ' ::
                ((joined ", " ((m' :: more).map memberText)).toList ++ '\x7d' :: rest) := by
            rw [List.map_cons, List.map_cons, toList_joined_cons]
            simp
          obtain ⟨v, q, hread⟩ := readMembers_member hm
            (show (memberText m).toList.length < fuel by omega) p (ends_cons (.inl rfl)
              (' ' :: ((joined ", " ((m' :: more).map memberText)).toList ++ '\x7d' :: rest)))
          obtain ⟨vs, q', hvs⟩ := ih nofun (fun u hu => h u (List.mem_cons_of_mem _ hu))
            (show (joined ", " ((m' :: more).map memberText)).toList.length + 1 < fuel by omega)
            (q + 1 + 1)
          refine ⟨(.text m.1, v) :: vs, q', ?_⟩
          rw [htext, hread]
          simp only [List.head?_cons]
          rw [List.map_cons] at hvs ⊢
          rw [skipSpace_next (toList_memberText m') (by decide), hvs]
          rfl

end Joined

theorem skipSpace_lead {p : Nat} {c : Char} (h : isLead c = true) (cs : List Char) :
    Cursor.skipSpace ⟨p, c :: cs⟩ = ⟨p, c :: cs⟩ :=
  skipSpace_cons (isSpace_of_isLead h) cs

/-- Items that are read, with commas between and in brackets, are read as a list. -/
theorem isRead_list {parts : List String} (h : ∀ s ∈ parts, IsRead s.toList) :
    IsRead ('[' :: ((joined ", " parts).toList ++ [']'])) := by
  refine ⟨⟨'[', _, rfl, by decide⟩, fun {fuel rest} p hfuel _ => ?_⟩
  obtain ⟨fuel, rfl⟩ := Nat.exists_eq_succ_of_ne_zero (Nat.ne_zero_of_lt hfuel)
  cases parts with
  | nil =>
      refine ⟨.list [], p + 1 + 1, ?_⟩
      rfl
  | cons s more =>
      obtain ⟨c, cs, hs, hlead⟩ := (h s List.mem_cons_self).start
      obtain ⟨ds, hds⟩ := exists_lead_joined hs more
      have hlength : (joined ", " (s :: more)).toList.length + 1 < fuel := by
        simp only [List.length_cons, List.length_append, List.length_nil] at hfuel
        omega
      obtain ⟨vs, q, hvs⟩ := readItems_joined (List.cons_ne_nil s more) h hlength (p + 1) rest
      refine ⟨.list vs, q, ?_⟩
      have htext : ('[' :: ((joined ", " (s :: more)).toList ++ [']'])) ++ rest =
          '[' :: ((joined ", " (s :: more)).toList ++ ']' :: rest) := by
        simp
      have hinside : (Cursor.advance ⟨p, '[' :: ((joined ", " (s :: more)).toList ++ ']' :: rest)⟩
          1).skipSpace = ⟨p + 1, (joined ", " (s :: more)).toList ++ ']' :: rest⟩ := by
        rw [hds]
        exact skipSpace_lead hlead _
      have hhead : ((joined ", " (s :: more)).toList ++ ']' :: rest).head? ≠ some ']' := by
        rw [hds]
        simp only [isLead, Bool.and_eq_true, bne_iff_ne] at hlead
        exact fun heq => hlead.1.2 (Option.some.inj heq)
      rw [htext, readValue]
      simp only [hinside, if_neg hhead, hvs]
      rfl

/-- Members of which the values are read, with commas between and in braces, are read as a map. -/
theorem isRead_map {ms : List (String × String)} (h : ∀ m ∈ ms, IsRead m.2.toList) :
    IsRead ('\x7b' :: ((joined ", " (ms.map memberText)).toList ++ ['\x7d'])) := by
  refine ⟨⟨'\x7b', _, rfl, by decide⟩, fun {fuel rest} p hfuel _ => ?_⟩
  obtain ⟨fuel, rfl⟩ := Nat.exists_eq_succ_of_ne_zero (Nat.ne_zero_of_lt hfuel)
  cases ms with
  | nil =>
      refine ⟨.map [], p + 1 + 1, ?_⟩
      rfl
  | cons m more =>
      obtain ⟨ds, hds⟩ := exists_lead_joined (toList_memberText m) (more.map memberText)
      have hlength : (joined ", " ((m :: more).map memberText)).toList.length + 1 < fuel := by
        simp only [List.length_cons, List.length_append, List.length_nil] at hfuel
        omega
      obtain ⟨vs, q, hvs⟩ := readMembers_joined (List.cons_ne_nil m more) h hlength (p + 1) rest
      refine ⟨.map (Members.ofList vs), q, ?_⟩
      rw [List.map_cons] at hvs ⊢
      have htext : ('\x7b' :: ((joined ", " (memberText m :: more.map memberText)).toList
          ++ ['\x7d'])) ++ rest =
            '\x7b' :: ((joined ", " (memberText m :: more.map memberText)).toList
              ++ '\x7d' :: rest) := by
        simp
      have hinside : (Cursor.advance ⟨p, '\x7b' :: ((joined ", " (memberText m ::
          more.map memberText)).toList ++ '\x7d' :: rest)⟩ 1).skipSpace =
            ⟨p + 1, (joined ", " (memberText m :: more.map memberText)).toList
              ++ '\x7d' :: rest⟩ := by
        rw [hds]
        exact skipSpace_lead (by decide) _
      have hhead : ((joined ", " (memberText m :: more.map memberText)).toList
          ++ '\x7d' :: rest).head? ≠ some '\x7d' := by
        rw [hds]
        exact nofun
      rw [htext, readValue]
      simp only [hinside, if_neg hhead, hvs]
      rfl

mutual
/-- The numbers with a point in a value are binary64 numbers. -/
def IsBinary64 : Value → Prop
  | .double d => d.IsBinary64
  | .list items => AreBinary64 items
  | .tuple items => AreBinary64 items
  | .map members => MembersAreBinary64 members
  | _ => True

def AreBinary64 : List Value → Prop
  | [] => True
  | v :: vs => IsBinary64 v ∧ AreBinary64 vs

def MembersAreBinary64 : List (Key × Value) → Prop
  | [] => True
  | (_, v) :: rest => IsBinary64 v ∧ MembersAreBinary64 rest
end

theorem enclose_line (level : Nat) (opening closing : String) (parts : List String) :
    (Style.line.enclose level opening closing parts).toList =
      opening.toList ++ ((joined ", " parts).toList ++ closing.toList) := by
  cases parts <;> simp [Style.enclose, Style.line, Style.newline, joined]

theorem isRead_number {d : Double} (h : d.IsBinary64) : IsRead (number d).toList := by
  cases d with
  | nan => exact isRead_word "NaN" (by decide)
  | infinite negative =>
      cases negative with
      | true => exact isRead_word "-Infinity" (by decide)
      | false => exact isRead_word "Infinity" (by decide)
  | finite negative m e =>
      obtain ⟨t, hwf, hnotWhole, htext⟩ := Double.exists_numeral h
      show IsRead (Double.finite negative m e).text.toList
      rw [← htext]
      exact isRead_numeral hwf fun hwhole => absurd hwhole hnotWhole

/-- The digits of a number without a fault can be read. -/
theorem length_le_of_fault? {n : Int} (h : fault? true (.int n) = none) :
    (Nat.toDigits 10 n.natAbs).length ≤ digitLimit := by
  rw [fault?, ite_eq_left_iff] at h
  by_contra hlong
  exact absurd (h fun hfits => hlong (of_decide_eq_true hfits)) nofun

theorem isRead_string (s : String) : IsRead (string true s).toList := by
  have htext : (string true s).toList = quoted s := by simp [string, quoted]
  rw [htext]
  exact isRead_quoted s

mutual
theorem isRead_writeAt (level : Nat) {v : Value} (hfault : fault? true v = none)
    (hdoubles : IsBinary64 v) : IsRead (writeAt .line level v).toList := by
  cases v with
  | null => exact isRead_word "null" (by decide)
  | bool b =>
      cases b with
      | true => exact isRead_word "true" (by decide)
      | false => exact isRead_word "false" (by decide)
  | int n =>
      rw [writeAt, ← Numeral.ofInt_text]
      exact isRead_numeral (Numeral.wellFormed_ofInt n) fun _ => length_le_of_fault? hfault
  | double d => exact isRead_number hdoubles
  | text s => exact isRead_string s
  | unresolved s => exact isRead_string s
  | missing => cases hfault
  | date d => cases hfault
  | moment m => cases hfault
  | list items =>
      rw [writeAt, enclose_line]
      exact isRead_list (isRead_writeItems (level + 1) hfault hdoubles)
  | tuple items =>
      rw [writeAt, enclose_line]
      exact isRead_list (isRead_writeItems (level + 1) hfault hdoubles)
  | map members =>
      obtain ⟨ms, hms, hread⟩ := isRead_writeMembers (level + 1) hfault hdoubles
      rw [writeAt, hms, enclose_line]
      exact isRead_map hread

theorem isRead_writeItems (level : Nat) {vs : List Value} (hfault : itemsFault? true vs = none)
    (hdoubles : AreBinary64 vs) : ∀ s ∈ writeItems .line level vs, IsRead s.toList := by
  cases vs with
  | nil => nofun
  | cons v vs =>
      obtain ⟨hv, hvs⟩ := itemsFault?_cons_eq_none.1 hfault
      intro s hs
      rcases List.mem_cons.mp hs with rfl | hs
      · exact isRead_writeAt level hv hdoubles.1
      · exact isRead_writeItems level hvs hdoubles.2 s hs

theorem isRead_writeMembers (level : Nat) {members : List (Key × Value)}
    (hfault : membersFault? true members = none) (hdoubles : MembersAreBinary64 members) :
    ∃ ms : List (String × String), writeMembers .line level members = ms.map memberText ∧
      ∀ m ∈ ms, IsRead m.2.toList := by
  match members with
  | [] => exact ⟨[], rfl, nofun⟩
  | (key, v) :: rest =>
      obtain ⟨⟨-, hv⟩, hrest⟩ := membersFault?_cons_eq_none.1 hfault
      obtain ⟨ms, hms, hread⟩ := isRead_writeMembers level hrest hdoubles.2
      refine ⟨(keyText key, writeAt .line level v) :: ms, ?_, ?_⟩
      · rw [writeMembers, hms]
        rfl
      · intro m hm
        rcases List.mem_cons.mp hm with rfl | hm
        · exact isRead_writeAt level hv hdoubles.1
        · exact hread m hm
end

/-- JSON that is written on one line is read. -/
theorem exists_read?_write {v : Value} (hfault : fault? true v = none) (hdoubles : IsBinary64 v) :
    ∃ w, read? (write .line v).toList = .ok w := by
  obtain ⟨⟨c, cs, htext, hlead⟩, hread⟩ := isRead_writeAt 0 hfault hdoubles
  have hends : Ends [] := nofun
  have hmark : (write .line v).toList.head? ≠ some '\uFEFF' := by
    rw [write, htext]
    simp only [isLead, Bool.and_eq_true, bne_iff_ne] at hlead
    exact fun heq => hlead.2 (Option.some.inj heq)
  obtain ⟨w, q, hw⟩ := hread 0
    (show (writeAt .line 0 v).toList.length < 2 * (writeAt .line 0 v).toList.length + 2 by omega)
    hends
  refine ⟨w, ?_⟩
  have hstart : Cursor.skipSpace ⟨0, (write .line v).toList⟩ = ⟨0, (write .line v).toList⟩ := by
    rw [write, htext]
    exact skipSpace_lead hlead _
  rw [List.append_nil] at hw
  rw [read?, if_neg hmark, hstart, write, hw]
  rfl

end Receipt.Json
