import Receipt.Number.Reader
import Receipt.Proofs.Number.Shortest
import Receipt.Proofs.Text.Run

/-!
# Numerals

A numeral is a number as it is written: a sign, digits without a needless zero before them, a
fraction and an exponent. Every whole number and every finite number is written as a numeral,
`ofInt_text` and `exists_numeral`, and a numeral is read by the readers of numbers, `readInt_text`
and `readDecimal?_text`.
-/
namespace Receipt.Number

open Text

/-- Only ASCII digits. -/
def AreDigits (cs : List Char) : Prop := ∀ c ∈ cs, c.isDigit = true

theorem AreDigits.append {cs ds : List Char} (hcs : AreDigits cs) (hds : AreDigits ds) :
    AreDigits (cs ++ ds) := by
  intro c hc
  rcases List.mem_append.mp hc with hc | hc
  · exact hcs c hc
  · exact hds c hc

theorem AreDigits.exists_last {cs : List Char} (h : AreDigits cs) (hne : cs ≠ []) :
    ∃ front c, cs = front ++ [c] ∧ c.isDigit = true :=
  ⟨cs.dropLast, cs.getLast hne, (List.dropLast_concat_getLast hne).symm,
    h _ (List.getLast_mem hne)⟩

theorem head?_append_left {cs ds : List Char} (hcs : cs ≠ []) : (cs ++ ds).head? = cs.head? := by
  cases cs with
  | nil => exact absurd rfl hcs
  | cons c cs => rfl

theorem areDigits_zeros (n : Nat) : AreDigits (List.replicate n '0') := by
  intro c hc
  rw [List.eq_of_mem_replicate hc]
  rfl

theorem areDigits_toDigits (n : Nat) : AreDigits (Nat.toDigits 10 n) := fun _ hc =>
  Nat.isDigit_of_mem_toDigits (by decide) (by decide) hc

theorem head?_toDigits {n : Nat} (hn : 0 < n) : (Nat.toDigits 10 n).head? ≠ some '0' := by
  induction n using Nat.strongRecOn with
  | ind n ih =>
      by_cases hsmall : n < 10
      · rw [Nat.toDigits_of_lt_base hsmall]
        have hdigit : ∀ d < 10, 0 < d → Nat.digitChar d ≠ '0' := by decide
        simpa using hdigit n hsmall hn
      · have hfront := ih (n / 10) (by omega) (by omega)
        rw [Nat.toDigits_of_base_le (by decide) (by omega), List.head?_append]
        cases hhead : (Nat.toDigits 10 (n / 10)).head? with
        | none => exact absurd (List.head?_eq_none_iff.mp hhead) Nat.toDigits_ne_nil
        | some c =>
            rw [hhead] at hfront
            exact hfront

structure Numeral where
  negative : Bool
  whole : List Char
  places : List Char
  /-- The sign and the digits of the exponent. -/
  exponent : Option (Char × List Char)

namespace Numeral

def sign (t : Numeral) : List Char := if t.negative then ['-'] else []

def fraction (t : Numeral) : List Char := if t.places = [] then [] else '.' :: t.places

def power (t : Numeral) : List Char :=
  match t.exponent with
  | none => []
  | some (sign, ds) => 'e' :: sign :: ds

def text (t : Numeral) : List Char := t.sign ++ (t.whole ++ (t.fraction ++ t.power))

/-- Nothing stands behind the digits. -/
def IsWhole (t : Numeral) : Prop := t.places = [] ∧ t.exponent = none

structure WellFormed (t : Numeral) : Prop where
  ne_nil : t.whole ≠ []
  whole : AreDigits t.whole
  lead : t.whole.head? = some '0' → t.whole = ['0']
  places : AreDigits t.places
  exponent : ∀ power ∈ t.exponent,
    (power.1 = '+' ∨ power.1 = '-') ∧ power.2 ≠ [] ∧ AreDigits power.2

end Numeral

section Readers

theorem digitValue?_of_isDigit {c : Char} (h : c.isDigit = true) :
    ∃ d, digitValue? c = some d :=
  Option.isSome_iff_exists.mp (isDecimalDigit_of_isDigit h)

theorem ne_of_isDigit {c d : Char} (hc : c.isDigit = true) (hd : d.isDigit = false) : c ≠ d := by
  rintro rfl
  rw [hc] at hd
  cases hd

theorem isMargin_of_isDigit {c : Char} (h : c.isDigit = true) : isMargin c = false := by
  simp only [Char.isDigit, Bool.and_eq_true, decide_eq_true_eq] at h
  have hlow : 48 ≤ c.toNat := UInt32.le_iff_toNat_le.mp h.1
  have hhigh : c.toNat ≤ 57 := UInt32.le_iff_toNat_le.mp h.2
  have hascii : c.toNat < 128 := by omega
  have hblank : isBlank c = false := by
    simp only [isBlank, hascii, if_true, Bool.or_eq_false_iff, Bool.and_eq_false_iff,
      decide_eq_false_iff_not]
    omega
  rw [isMargin, hblank]
  rfl

/-- No run of digits goes on with the text. -/
def Breaks (cs : List Char) : Prop := ∀ c ∈ cs.head?, digitValue? c = none ∧ c ≠ '_'

theorem breaks_nil : Breaks [] := nofun

theorem moreDigits_cons {c : Char} {d : Nat} (h : digitValue? c = some d) (cs : List Char) :
    moreDigits (c :: cs) = (d :: (moreDigits cs).1, (moreDigits cs).2) := by
  cases cs with
  | nil => simp only [moreDigits, h]
  | cons next cs => simp only [moreDigits, h]

theorem moreDigits_of_breaks {cs : List Char} (h : Breaks cs) : moreDigits cs = ([], cs) := by
  match cs with
  | [] => rfl
  | [c] => simp only [moreDigits, (h c rfl).1]
  | c :: next :: cs =>
      obtain ⟨hnone, hline⟩ := h c rfl
      simp only [moreDigits, hnone]
      split
      · next hc _ => exact absurd rfl hline
      · rfl

theorem moreDigits_append {ds rest : List Char} (hds : AreDigits ds) (hrest : Breaks rest) :
    ∃ values, values.length = ds.length ∧ moreDigits (ds ++ rest) = (values, rest) := by
  induction ds with
  | nil => exact ⟨[], rfl, moreDigits_of_breaks hrest⟩
  | cons c ds ih =>
      obtain ⟨d, hd⟩ := digitValue?_of_isDigit (hds c List.mem_cons_self)
      obtain ⟨values, hlength, hmore⟩ := ih fun e he => hds e (List.mem_cons_of_mem _ he)
      refine ⟨d :: values, by simp [hlength], ?_⟩
      rw [List.cons_append, moreDigits_cons hd, hmore]

theorem digitRun_append {ds rest : List Char} (hne : ds ≠ []) (hds : AreDigits ds)
    (hrest : Breaks rest) :
    ∃ values, values.length = ds.length ∧ digitRun (ds ++ rest) = (values, rest) := by
  obtain ⟨values, hlength, hmore⟩ := moreDigits_append hds hrest
  refine ⟨values, hlength, ?_⟩
  cases ds with
  | nil => exact absurd rfl hne
  | cons c ds =>
      have hc : c ≠ '_' := ne_of_isDigit (hds c List.mem_cons_self) rfl
      rw [List.cons_append] at hmore ⊢
      rw [digitRun]
      · exact hmore
      · intro cs heq
        exact hc (List.cons.inj heq).1

theorem withoutMargins_eq {cs : List Char} (hfirst : Stops isMargin cs)
    (hlast : Stops isMargin cs.reverse) : withoutMargins cs = cs := by
  have hnone : ∀ c ∈ ([] : List Char), isMargin c = true := nofun
  have hfront : cs.dropWhile isMargin = cs := dropWhile_append_stop hnone hfirst
  have hback : cs.reverse.dropWhile isMargin = cs.reverse := dropWhile_append_stop hnone hlast
  rw [withoutMargins, hfront, hback, List.reverse_reverse]

end Readers

namespace Numeral

variable {t : Numeral}

theorem WellFormed.exists_digit (h : t.WellFormed) :
    ∃ c cs, t.whole = c :: cs ∧ c.isDigit = true := by
  obtain ⟨c, cs, hwhole⟩ := List.exists_cons_of_ne_nil h.ne_nil
  refine ⟨c, cs, hwhole, h.whole c ?_⟩
  rw [hwhole]
  exact List.mem_cons_self

theorem signed_text (h : t.WellFormed) :
    signed t.text = (t.negative, t.whole ++ (t.fraction ++ t.power)) := by
  obtain ⟨c, cs, hwhole, hc⟩ := h.exists_digit
  rw [text, sign, hwhole]
  cases t.negative with
  | true => rfl
  | false =>
      rw [signed.eq_def]
      split
      · next heq =>
        exact absurd (List.cons.inj heq).1 (ne_of_isDigit hc rfl)
      · next heq =>
        exact absurd (List.cons.inj heq).1 (ne_of_isDigit hc rfl)
      · rfl

theorem breaks_power (t : Numeral) : Breaks t.power := by
  unfold power
  split
  · nofun
  · intro c hc
    cases hc
    exact ⟨rfl, by decide⟩

theorem breaks_fraction (t : Numeral) : Breaks (t.fraction ++ t.power) := by
  unfold fraction
  split
  · exact t.breaks_power
  · intro c hc
    cases hc
    exact ⟨rfl, by decide⟩

theorem exists_last (h : t.WellFormed) : ∃ front c, t.text = front ++ [c] ∧ c.isDigit = true := by
  cases hpower : t.exponent with
  | some power =>
      obtain ⟨sign, ds⟩ := power
      obtain ⟨-, hne, hdigits⟩ := h.exponent _ hpower
      obtain ⟨front, c, rfl, hc⟩ := hdigits.exists_last hne
      refine ⟨t.sign ++ (t.whole ++ (t.fraction ++ ('e' :: sign :: front))), c, ?_, hc⟩
      simp [text, Numeral.power, hpower]
  | none =>
      have hnone : t.power = [] := by rw [power, hpower]
      by_cases hplaces : t.places = []
      · obtain ⟨front, c, hwhole, hc⟩ := h.whole.exists_last h.ne_nil
        refine ⟨t.sign ++ front, c, ?_, hc⟩
        simp [text, fraction, hplaces, hnone, hwhole]
      · obtain ⟨front, c, hlast, hc⟩ := h.places.exists_last hplaces
        refine ⟨t.sign ++ (t.whole ++ ('.' :: front)), c, ?_, hc⟩
        simp [text, fraction, hnone, hlast]

/-- The first and the last character of a numeral are no blanks. -/
theorem withoutMargins_text (h : t.WellFormed) : withoutMargins t.text = t.text := by
  refine withoutMargins_eq ?_ ?_
  · obtain ⟨c, cs, hwhole, hc⟩ := h.exists_digit
    rw [text, sign, hwhole]
    cases t.negative with
    | true => exact stops_cons (by decide) _
    | false => exact stops_cons (isMargin_of_isDigit hc) _
  · obtain ⟨front, c, htext, hc⟩ := exists_last h
    rw [htext, List.reverse_append]
    exact stops_cons (isMargin_of_isDigit hc) _

theorem readInt_text (h : t.WellFormed) (hwhole : t.IsWhole)
    (hlength : t.whole.length ≤ digitLimit) : ∃ n, readInt t.text = .ok n := by
  obtain ⟨values, hvalues, hrun⟩ := digitRun_append h.ne_nil h.whole breaks_nil
  have hbehind : t.fraction ++ t.power = [] := by
    rw [fraction, if_pos hwhole.1, power, hwhole.2]
    rfl
  have hne : values ≠ [] := by
    rintro rfl
    exact h.ne_nil (List.length_eq_zero_iff.mp hvalues.symm)
  obtain ⟨d, ds, rfl⟩ := List.exists_cons_of_ne_nil hne
  have hfew : ¬ digitLimit < (d :: ds).length := by omega
  refine ⟨applySign t.negative (ofDigits (d :: ds)), ?_⟩
  rw [readInt, withoutMargins_text h, signed_text h, hbehind]
  simp only [hrun, ofLimitedDigits, if_neg hfew]

theorem readExponent?_power (h : t.WellFormed) : ∃ e, readExponent? t.power = some (e, []) := by
  cases hpower : t.exponent with
  | none =>
      refine ⟨0, ?_⟩
      rw [power, hpower, readExponent?]
  | some power =>
      obtain ⟨sign, ds⟩ := power
      obtain ⟨hsign, hne, hdigits⟩ := h.exponent _ hpower
      obtain ⟨values, hvalues, hrun⟩ := digitRun_append hne hdigits breaks_nil
      have hcons : values ≠ [] := by
        rintro rfl
        exact hne (List.length_eq_zero_iff.mp hvalues.symm)
      obtain ⟨d, values, rfl⟩ := List.exists_cons_of_ne_nil hcons
      rw [List.append_nil] at hrun
      rw [Numeral.power, hpower]
      rcases hsign with rfl | rfl
      · refine ⟨applySign false (ofDigits (d :: values)), ?_⟩
        simp [readExponent?, signed, hrun]
      · refine ⟨applySign true (ofDigits (d :: values)), ?_⟩
        simp [readExponent?, signed, hrun]

theorem readDecimal?_text (h : t.WellFormed) : ∃ d, readDecimal? t.text = some d := by
  obtain ⟨values, hvalues, hrun⟩ := digitRun_append h.ne_nil h.whole t.breaks_fraction
  have hne : values ≠ [] := by
    rintro rfl
    exact h.ne_nil (List.length_eq_zero_iff.mp hvalues.symm)
  obtain ⟨d, values, rfl⟩ := List.exists_cons_of_ne_nil hne
  obtain ⟨e, hpower⟩ := readExponent?_power h
  unfold readDecimal?
  rw [signed_text h]
  simp only [hrun]
  by_cases hplaces : t.places = []
  · -- Without a point the exponent is next, which starts with another letter.
    have hbehind : t.fraction ++ t.power = t.power := by
      rw [fraction, if_pos hplaces, List.nil_append]
    have hpoint : ∀ rest, t.power ≠ '.' :: rest := by
      intro rest heq
      have hhead := congrArg List.head? heq
      rw [power] at hhead
      cases hexponent : t.exponent <;> simp [hexponent] at hhead
    rw [hbehind]
    split
    · next rest heq => exact absurd heq (hpoint rest)
    · simp [hpower]
  · obtain ⟨places, -, hmore⟩ := digitRun_append hplaces h.places t.breaks_power
    rw [fraction, if_neg hplaces, List.cons_append]
    simp [hmore, hpower]

/-- A whole number as it is written. -/
def ofInt (n : Int) : Numeral := ⟨decide (n < 0), Nat.toDigits 10 n.natAbs, [], none⟩

theorem ofInt_text (n : Int) : (ofInt n).text = (toString n).toList := by
  have hbehind : (ofInt n).text = (ofInt n).sign ++ Nat.toDigits 10 n.natAbs := by
    simp [text, fraction, power, ofInt]
  rw [hbehind]
  cases n with
  | ofNat n =>
      have hsign : (ofInt (Int.ofNat n)).sign = [] := if_neg (by simp [ofInt])
      rw [hsign]
      show Nat.toDigits 10 n = (toString n).toList
      rw [Nat.toString_eq_ofList_toDigits, String.toList_ofList]
  | negSucc n =>
      have hsign : (ofInt (Int.negSucc n)).sign = ['-'] := if_pos (by simp [ofInt])
      rw [hsign]
      show '-' :: Nat.toDigits 10 (n + 1) = ("-" ++ toString (n + 1)).toList
      simp

theorem lead_toDigits {n : Nat} (h : (Nat.toDigits 10 n).head? = some '0') :
    Nat.toDigits 10 n = ['0'] := by
  rcases Nat.eq_zero_or_pos n with rfl | hn
  · rfl
  · exact absurd h (head?_toDigits hn)

theorem wellFormed_ofInt (n : Int) : (ofInt n).WellFormed :=
  ⟨Nat.toDigits_ne_nil, areDigits_toDigits _, lead_toDigits, nofun, nofun⟩

end Numeral

end Receipt.Number

namespace Receipt.Double

open Number

/-- The exponent of a number that is written with one. -/
theorem exists_exponentText (e : Int) :
    ∃ sign ds, (exponentText e).toList = 'e' :: sign :: ds ∧ (sign = '+' ∨ sign = '-') ∧ ds ≠ [] ∧
      AreDigits ds := by
  have hdigits : ∃ ds, (if (toString e.natAbs).length < 2 then "0" ++ toString e.natAbs
      else toString e.natAbs).toList = ds ∧ ds ≠ [] ∧ AreDigits ds := by
    rw [Nat.toString_eq_ofList_toDigits]
    split
    · refine ⟨'0' :: Nat.toDigits 10 e.natAbs, by simp, nofun, ?_⟩
      exact (areDigits_zeros 1).append (areDigits_toDigits _)
    · exact ⟨Nat.toDigits 10 e.natAbs, by simp, Nat.toDigits_ne_nil, areDigits_toDigits _⟩
  obtain ⟨ds, hds, hne, hall⟩ := hdigits
  unfold exponentText
  simp only [String.toList_append, hds]
  by_cases hsign : e < 0
  · refine ⟨'-', ds, ?_, .inr rfl, hne, hall⟩
    rw [if_pos hsign]
    rfl
  · refine ⟨'+', ds, ?_, .inl rfl, hne, hall⟩
    rw [if_neg hsign]
    rfl

theorem stripTens_pos {n : Nat} (hn : 0 < n) (k : Int) : 0 < (stripTens n k).1 := by
  fun_induction stripTens n k with
  | case1 n k h ih => exact ih (by omega)
  | case2 n k h => exact hn

/-- Digits are a numeral when they are cut in two, with or without an exponent behind. -/
theorem wellFormed_cut {ds : List Char} {count : Nat} {exponent : Option (Char × List Char)}
    (hcount : 0 < count) (hne : ds ≠ []) (hall : AreDigits ds) (hlead : ds.head? ≠ some '0')
    (hexponent : ∀ power ∈ exponent,
      (power.1 = '+' ∨ power.1 = '-') ∧ power.2 ≠ [] ∧ AreDigits power.2) (negative : Bool) :
    (⟨negative, ds.take count, ds.drop count, exponent⟩ : Numeral).WellFormed := by
  have hpos : count ≠ 0 := Nat.pos_iff_ne_zero.mp hcount
  constructor
  · rw [Ne, List.take_eq_nil_iff, not_or]
    exact ⟨hpos, hne⟩
  · exact fun c hc => hall c (List.mem_of_mem_take hc)
  · intro hzero
    rw [List.head?_take, if_neg hpos] at hzero
    exact absurd hzero hlead
  · exact fun c hc => hall c (List.mem_of_mem_drop hc)
  · exact hexponent

/-- A positive number is set as a numeral with a point or an exponent. -/
theorem exists_layout {n : Nat} (hn : 0 < n) (k : Int) (negative : Bool) :
    ∃ t : Numeral, t.negative = negative ∧ t.WellFormed ∧ ¬ t.IsWhole ∧
      (layout n k).toList = t.whole ++ (t.fraction ++ t.power) := by
  have hne : Nat.toDigits 10 n ≠ [] := Nat.toDigits_ne_nil
  have hall := areDigits_toDigits n
  have hlead := head?_toDigits hn
  unfold layout
  rw [Nat.toString_eq_ofList_toDigits]
  generalize Nat.toDigits 10 n = ds at hne hall hlead
  simp only [String.length_ofList, String.toList_ofList]
  generalize hpoint : (ds.length : Int) + k = point
  have hlength : 0 < ds.length := List.length_pos_iff.mpr hne
  split
  · split
    · -- Below one: zeros come between the point and the digits.
      let zeros := List.replicate (-point).toNat '0'
      refine ⟨⟨negative, ['0'], zeros ++ ds, none⟩, rfl, ⟨nofun, areDigits_zeros 1, fun _ => rfl,
        (areDigits_zeros _).append hall, nofun⟩, ?_, ?_⟩
      · exact fun hwhole => hne (List.append_eq_nil_iff.mp hwhole.1).2
      · simp [Numeral.fraction, Numeral.power, hne, zeros]
    · split
      · -- A whole number: zeros go on after the digits.
        let zeros := List.replicate (point - ds.length).toNat '0'
        refine ⟨⟨negative, ds ++ zeros, ['0'], none⟩, rfl, ⟨?_, hall.append (areDigits_zeros _),
          fun hzero => ?_, areDigits_zeros 1, nofun⟩, ?_, ?_⟩
        · exact fun hnil => hne (List.append_eq_nil_iff.mp hnil).1
        · rw [head?_append_left hne] at hzero
          exact absurd hzero hlead
        · exact fun hwhole => by cases hwhole.1
        · simp [Numeral.fraction, Numeral.power, zeros]
      · -- The point stands among the digits.
        have hplaces : ds.drop point.toNat ≠ [] := by
          rw [Ne, List.drop_eq_nil_iff]
          omega
        have hcount : 0 < point.toNat := by omega
        have hnone : ∀ p ∈ (none : Option (Char × List Char)),
            (p.1 = '+' ∨ p.1 = '-') ∧ p.2 ≠ [] ∧ AreDigits p.2 := by
          rintro p ⟨⟩
        refine ⟨⟨negative, ds.take point.toNat, ds.drop point.toNat, none⟩, rfl,
          wellFormed_cut hcount hne hall hlead hnone negative, ?_, ?_⟩
        · exact fun hwhole => hplaces hwhole.1
        · simp [Numeral.fraction, Numeral.power, hplaces]
  · obtain ⟨sign, power, hpower, hsign, hpowerNe, hpowerAll⟩ := exists_exponentText (point - 1)
    have hexponent : ∀ p ∈ some (sign, power),
        (p.1 = '+' ∨ p.1 = '-') ∧ p.2 ≠ [] ∧ AreDigits p.2 := by
      rintro _ ⟨rfl⟩
      exact ⟨hsign, hpowerNe, hpowerAll⟩
    refine ⟨⟨negative, ds.take 1, ds.drop 1, some (sign, power)⟩, rfl,
      wellFormed_cut Nat.one_pos hne hall hlead hexponent negative, ?_, ?_⟩
    · exact fun hwhole => by cases hwhole.2
    · rw [List.drop_one]
      by_cases hplaces : ds.tail = []
      · simp [Numeral.fraction, Numeral.power, hplaces, hpower]
      · simp [Numeral.fraction, Numeral.power, hplaces, hpower]

/-- What it takes for the digits of a number to be found. -/
def IsBinary64 : Double → Prop
  | .finite _ m e => 0 < m → Fits m e
  | _ => True

theorem exists_numeral {negative : Bool} {m : Nat} {e : Int}
    (h : (Double.finite negative m e).IsBinary64) :
    ∃ t : Numeral, t.WellFormed ∧ ¬ t.IsWhole ∧ t.text = (Double.finite negative m e).text.toList := by
  have hsign : (if negative then "-" else "").toList = if negative then ['-'] else [] := by
    cases negative <;> rfl
  rw [text, String.toList_append, hsign]
  by_cases hm : m = 0
  · rw [if_pos hm]
    refine ⟨⟨negative, ['0'], ['0'], none⟩, ⟨by simp, ?_, fun _ => rfl, ?_, nofun⟩, ?_, ?_⟩
    · exact areDigits_zeros 1
    · exact areDigits_zeros 1
    · exact fun hwhole => by cases hwhole.1
    · rfl
  · rw [if_neg hm]
    have hpos : 0 < m := Nat.pos_of_ne_zero hm
    have hdigits := stripTens_pos (digits_pos hpos (h hpos)) (digits m e).2
    obtain ⟨t, hnegative, hwf, hnotWhole, hlayout⟩ :=
      exists_layout hdigits (stripTens (digits m e).1 (digits m e).2).2 negative
    refine ⟨t, hwf, hnotWhole, ?_⟩
    rw [Numeral.text, Numeral.sign, hnegative, ← hlayout]

end Receipt.Double
