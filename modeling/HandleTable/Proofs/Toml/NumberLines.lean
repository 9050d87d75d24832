import HandleTable.Proofs.Toml.DistinctKeys
import Mathlib.Data.List.Basic

/-!
# Documents that give numbers

The simplest documents have one line for each key, with a bare key, an equals sign and a
number in decimal.  Such a document reads back: as long as no key is given twice and no
number is beyond sixty-three bits, its settings are the keys with their numbers, in the
order of the lines (`settings?_numberLines`).

A number of that form is tried as a date, as a time and as a floating point number before it
is read as an integer.  None of these can be made of digits with a line end behind them: a
date goes on with a dash and a time with a colon, where here a digit or the line end
stands.
-/

namespace HandleTable.Toml

/-! ## Digits -/

theorem ne_of_accepts {accepts : Char → Bool} {c d : Char} (hc : accepts c = true)
    (hd : accepts d = false) : c ≠ d := by
  rintro rfl
  simp [hd] at hc

theorem isDigit_of_mem_toDigits {number : ℕ} {c : Char} (hc : c ∈ Nat.toDigits 10 number) :
    isDigit c = true := by
  have hdigit := Nat.isDigit_of_mem_toDigits (by decide) (by decide) hc
  simpa [Char.isDigit, isDigit, Char.le_def] using hdigit

theorem moreDigits_append {accepts : Char → Bool} {text : List Char}
    (htext : ∀ c ∈ text, accepts c = true) (hstop : accepts '\n' = false) (rest : List Char) :
    moreDigits accepts (text ++ '\n' :: rest) = (text, '\n' :: rest) := by
  induction text with
  | nil => cases rest <;> simp [moreDigits, hstop]
  | cons c text ih =>
      have hc := htext c List.mem_cons_self
      have hrest := ih fun d hd => htext d (List.mem_cons_of_mem _ hd)
      -- the next character is looked at as well, in case this one is an underscore
      cases text with
      | nil | cons =>
          simp only [List.cons_append, List.nil_append] at hrest ⊢
          simp [moreDigits, hc, hrest]

theorem digits_append {accepts : Char → Bool} {text : List Char} (hsome : text ≠ [])
    (htext : ∀ c ∈ text, accepts c = true) (hstop : accepts '\n' = false) (rest : List Char) :
    digits accepts (text ++ '\n' :: rest) = some (text, '\n' :: rest) := by
  cases text with
  | nil => contradiction
  | cons c text =>
      have hmore := moreDigits_append (fun d hd => htext d (List.mem_cons_of_mem _ hd)) hstop rest
      simp [digits, htext c List.mem_cons_self, hmore]

/-- Only zero is written with a zero in front. -/
theorem toDigits_eq_zero_cons {number : ℕ} {rest : List Char}
    (hzero : Nat.toDigits 10 number = '0' :: rest) : number = 0 := by
  induction number using Nat.strongRecOn generalizing rest with
  | ind number ih =>
      by_cases hsmall : number < 10
      · rw [Nat.toDigits_of_lt_base hsmall, List.cons.injEq] at hzero
        have hdigit : ∀ digit < 10, Nat.digitChar digit = '0' → digit = 0 := by decide
        exact hdigit number hsmall hzero.1
      · rw [Nat.toDigits_of_base_le (by decide) (Nat.not_lt.mp hsmall)] at hzero
        cases hfront : Nat.toDigits 10 (number / 10) with
        | nil => exact absurd hfront Nat.toDigits_ne_nil
        | cons c front =>
            rw [hfront, List.cons_append, List.cons.injEq] at hzero
            rw [hzero.1] at hfront
            have := ih (number / 10) (by omega) hfront
            omega

theorem eq_of_toDigits_append_eq_zero_cons {number : ℕ} {rest tail : List Char}
    (hzero : Nat.toDigits 10 number ++ rest = '0' :: tail) : number = 0 ∧ tail = rest := by
  cases hdigits : Nat.toDigits 10 number with
  | nil => exact absurd hdigits Nat.toDigits_ne_nil
  | cons c front =>
      rw [hdigits, List.cons_append, List.cons.injEq] at hzero
      obtain ⟨rfl, htail⟩ := hzero
      obtain rfl := toDigits_eq_zero_cons hdigits
      rw [Nat.toDigits_zero, List.cons.injEq] at hdigits
      rw [← htail, ← hdigits.2]
      exact ⟨rfl, rfl⟩

theorem wholeDigits_toDigits (number : ℕ) (rest : List Char) :
    wholeDigits (Nat.toDigits 10 number ++ '\n' :: rest) =
      some (Nat.toDigits 10 number, '\n' :: rest) := by
  unfold wholeDigits
  split
  · rename_i tail hzero
    obtain ⟨rfl, rfl⟩ := eq_of_toDigits_append_eq_zero_cons hzero
    rfl
  · exact digits_append Nat.toDigits_ne_nil (fun _ => isDigit_of_mem_toDigits) (by decide) rest

theorem valueOf_toDigits (number : ℕ) : valueOf 10 (Nat.toDigits 10 number) = number := by
  have hvalues : valueOf 10 (Nat.toDigits 10 number) =
      Nat.ofDigitChars 10 (Nat.toDigits 10 number) 0 := by
    rw [valueOf, Nat.ofDigitChars_eq_foldl]
    refine List.foldl_ext _ _ _ fun value digit hdigit => ?_
    have hrange := isDigit_of_mem_toDigits hdigit
    simp only [isDigit, Bool.and_eq_true, decide_eq_true_eq] at hrange
    rw [Text.Hex.digitValue?, if_pos hrange]
    rfl
  rw [hvalues, Nat.ofDigitChars_ten_toDigits]

/-! ## A number as a value -/

/-- What has been left of digits and a line end starts with a digit or the line end. -/
theorem after?_append {expected : Char} {text : List Char} (htext : ∀ c ∈ text, isDigit c = true)
    (hdigit : isDigit expected = false) (hline : expected ≠ '\n') (rest : List Char) :
    after? expected (text ++ '\n' :: rest) = none := by
  cases text with
  | nil => simp [after?, hline.symm]
  | cons c text =>
      simp [after?, ne_of_accepts (htext c List.mem_cons_self) hdigit]

/-- A number of so many digits leaves the other digits and the line end. -/
theorem fixedNumber_append {count least greatest value : ℕ} {text after rest : List Char}
    (htext : ∀ c ∈ text, isDigit c = true)
    (hread : fixedNumber count least greatest (text ++ '\n' :: rest) = some (value, after)) :
    ∃ left, (∀ c ∈ left, isDigit c = true) ∧ after = left ++ '\n' :: rest := by
  simp only [fixedNumber, bind, Option.bind_eq_some_iff, Option.guard_eq_some', pure,
    Option.some.injEq, Prod.mk.injEq] at hread
  obtain ⟨-, ⟨-, hall⟩, -, -, -, rfl⟩ := hread
  -- the line end is no digit, so that it is not among those that were taken
  have hcount : count ≤ text.length := by
    by_contra hmore
    have hline : '\n' ∈ (text ++ '\n' :: rest).take count := by
      rw [List.take_append, List.mem_append]
      obtain ⟨extra, hextra⟩ :=
        Nat.exists_eq_succ_of_ne_zero (Nat.sub_ne_zero_of_lt (Nat.not_le.mp hmore))
      rw [hextra]
      exact Or.inr List.mem_cons_self
    exact absurd (List.all_eq_true.mp hall _ hline) (by decide)
  refine ⟨text.drop count, fun c hc => htext c (List.mem_of_mem_drop hc), ?_⟩
  exact List.drop_append_of_le_length hcount

/-- So there is no other character to go on with. -/
theorem after?_of_fixedNumber {expected : Char} (hdigit : isDigit expected = false)
    (hline : expected ≠ '\n') {count least greatest value : ℕ} {text after rest : List Char}
    (htext : ∀ c ∈ text, isDigit c = true)
    (hread : fixedNumber count least greatest (text ++ '\n' :: rest) = some (value, after)) :
    after? expected after = none := by
  obtain ⟨left, hleft, rfl⟩ := fixedNumber_append htext hread
  exact after?_append hleft hdigit hline rest

theorem date?_append {text : List Char} (htext : ∀ c ∈ text, isDigit c = true)
    (rest : List Char) : date? (text ++ '\n' :: rest) = none := by
  rw [date?]
  cases hyear : fixedNumber 4 0 9999 (text ++ '\n' :: rest) with
  | none => rfl
  | some year =>
      show (after? '-' year.2).bind _ = none
      rw [after?_of_fixedNumber (by decide) (by decide) htext hyear]
      rfl

theorem time?_append {text : List Char} (htext : ∀ c ∈ text, isDigit c = true)
    (rest : List Char) : time? (text ++ '\n' :: rest) = none := by
  rw [time?]
  cases hhour : fixedNumber 2 0 23 (text ++ '\n' :: rest) with
  | none => rfl
  | some hour =>
      show (after? ':' hour.2).bind _ = none
      rw [after?_of_fixedNumber (by decide) (by decide) htext hhour]
      rfl

theorem exists_toDigits_eq_cons (number : ℕ) :
    ∃ c rest, Nat.toDigits 10 number = c :: rest ∧ isDigit c = true := by
  have hsome : Nat.toDigits 10 number ≠ [] := Nat.toDigits_ne_nil
  obtain ⟨c, rest, hcons⟩ := List.exists_cons_of_ne_nil hsome
  exact ⟨c, rest, hcons, isDigit_of_mem_toDigits (hcons ▸ List.mem_cons_self)⟩

theorem sign_toDigits (number : ℕ) (rest : List Char) :
    sign (Nat.toDigits 10 number ++ rest) = (false, Nat.toDigits 10 number ++ rest) := by
  obtain ⟨c, more, hcons, hc⟩ := exists_toDigits_eq_cons number
  rw [hcons, List.cons_append]
  have hminus : c ≠ '-' := ne_of_accepts hc (by decide)
  have hplus : c ≠ '+' := ne_of_accepts hc (by decide)
  unfold sign
  split <;> simp_all

theorem floatLiteral_toDigits (number : ℕ) (rest : List Char) :
    floatLiteral (Nat.toDigits 10 number ++ '\n' :: rest) = none := by
  have htail : decimalTail ('\n' :: rest) = none := rfl
  have hpoint : pointLiteral (Nat.toDigits 10 number ++ '\n' :: rest) = none := by
    simp [pointLiteral, sign_toDigits, wholeDigits_toDigits, htail]
  have hnamed : namedNumber (Nat.toDigits 10 number ++ '\n' :: rest) = none := by
    obtain ⟨c, more, hcons, hc⟩ := exists_toDigits_eq_cons number
    have hi : c ≠ 'i' := ne_of_accepts hc (by decide)
    have hn : c ≠ 'n' := ne_of_accepts hc (by decide)
    have hsign := sign_toDigits number ('\n' :: rest)
    rw [hcons, List.cons_append] at hsign ⊢
    simp only [namedNumber, hsign]
    split <;> simp_all
  rw [floatLiteral, hpoint, hnamed]
  rfl

/-- The marks of other bases stand behind a zero, where here the line ends. -/
theorem toDigits_append_ne_mark_cons {number : ℕ} {mark : Char} {rest tail : List Char}
    (hmark : mark ≠ '\n') : Nat.toDigits 10 number ++ '\n' :: rest ≠ '0' :: mark :: tail := by
  intro hzero
  have hline := (eq_of_toDigits_append_eq_zero_cons hzero).2
  exact hmark (List.cons.inj hline).1

theorem integerLiteral_toDigits {number : ℕ} (hnumber : number ≤ greatestInteger)
    (rest : List Char) :
    integerLiteral (Nat.toDigits 10 number ++ '\n' :: rest) =
      some ((number : Int), '\n' :: rest) := by
  have hdecimal : decimalLiteral (Nat.toDigits 10 number ++ '\n' :: rest) =
      some ((number : Int), '\n' :: rest) := by
    simp [decimalLiteral, sign_toDigits, wholeDigits_toDigits, valueOf_toDigits, inRange?, hnumber]
  unfold integerLiteral
  split
  · rename_i hmark
    exact absurd hmark (toDigits_append_ne_mark_cons (by decide))
  · rename_i hmark
    exact absurd hmark (toDigits_append_ne_mark_cons (by decide))
  · rename_i hmark
    exact absurd hmark (toDigits_append_ne_mark_cons (by decide))
  · exact hdecimal

theorem literal_toDigits {number : ℕ} (hnumber : number ≤ greatestInteger) (rest : List Char) :
    literal (Nat.toDigits 10 number ++ '\n' :: rest) =
      some (.integer number, '\n' :: rest) := by
  have hdigits : ∀ c ∈ Nat.toDigits 10 number, isDigit c = true := fun _ => isDigit_of_mem_toDigits
  have hnumeral : numeral (Nat.toDigits 10 number ++ '\n' :: rest) =
      some (.integer number, '\n' :: rest) := by
    rw [numeral, dateTime?, date?_append hdigits, time?_append hdigits, floatLiteral_toDigits,
      integerLiteral_toDigits hnumber]
    rfl
  rw [← hnumeral]
  obtain ⟨c, more, hcons, hc⟩ := exists_toDigits_eq_cons number
  have hother {d : Char} (hd : isDigit d = false) : (c == d) = false :=
    beq_eq_false_iff_ne.mpr (ne_of_accepts hc hd)
  rw [hcons, List.cons_append, literal, literalWithin.eq_def]
  simp [hother (show isDigit '"' = false by decide), hother (show isDigit '\'' = false by decide),
    hother (show isDigit '[' = false by decide), hother (show isDigit '\x7b' = false by decide),
    hother (show isDigit 't' = false by decide), hother (show isDigit 'f' = false by decide)]

/-! ## Lines -/

/-- A key that may stand without quotes. -/
structure IsBareKey (key : String) : Prop where
  nonempty : key ≠ ""
  bare : ∀ c ∈ key.toList, isBare c = true

/-- A line that gives a key a number, and what comes after it. -/
def numberLine (key : String) (number : ℕ) (rest : List Char) : List Char :=
  key.toList ++ ' ' :: '=' :: ' ' :: (Nat.toDigits 10 number ++ '\n' :: rest)

/-- What such a line adds to a table. -/
def numberEntry (key : String) (number : ℕ) (rest : List Char) : Key × Item :=
  (⟨key, numberLine key number rest⟩,
    .value (.integer number) (Nat.toDigits 10 number ++ '\n' :: rest))

/-- A line for each of some keys and their numbers. -/
def numberLines : List (String × ℕ) → List Char
  | [] => []
  | (key, number) :: pairs => numberLine key number (numberLines pairs)

/-- What all these lines add to a table. -/
def numberEntries : List (String × ℕ) → Entries
  | [] => []
  | (key, number) :: pairs => numberEntry key number (numberLines pairs) :: numberEntries pairs

theorem skipBlanks_toDigits (number : ℕ) (rest : List Char) :
    skipBlanks (' ' :: (Nat.toDigits 10 number ++ rest)) = Nat.toDigits 10 number ++ rest := by
  obtain ⟨c, more, hcons, hc⟩ := exists_toDigits_eq_cons number
  have hspace := ne_of_accepts hc (show isDigit ' ' = false by decide)
  have htab := ne_of_accepts hc (show isDigit '\t' = false by decide)
  simp [skipBlanks, isBlank, hcons, hspace, htab]

namespace IsBareKey

variable {key : String} (hkey : IsBareKey key)

include hkey

theorem exists_toList_eq_cons : ∃ c rest, key.toList = c :: rest ∧ isBare c = true := by
  obtain ⟨c, rest, hcons⟩ :=
    List.exists_cons_of_ne_nil (mt String.toList_eq_nil_iff.mp hkey.nonempty)
  exact ⟨c, rest, hcons, hkey.bare c (hcons ▸ List.mem_cons_self)⟩

theorem skipBlanks_append (rest : List Char) :
    skipBlanks (key.toList ++ rest) = key.toList ++ rest := by
  obtain ⟨c, more, hcons, hc⟩ := hkey.exists_toList_eq_cons
  have hblank : isBlank c = false := by
    have hspace := ne_of_accepts hc (show isBare ' ' = false by decide)
    have htab := ne_of_accepts hc (show isBare '\t' = false by decide)
    simp [isBlank, hspace, htab]
  rw [hcons, List.cons_append, skipBlanks, List.dropWhile_cons_of_neg (by simp [hblank])]

theorem simpleKey_append (rest : List Char) :
    simpleKey (key.toList ++ ' ' :: rest) = some (key, ' ' :: rest) := by
  have htake : (key.toList ++ ' ' :: rest).takeWhile isBare = key.toList := by
    rw [List.takeWhile_append_of_pos hkey.bare]
    simp [isBare]
  have hdrop : (key.toList ++ ' ' :: rest).dropWhile isBare = ' ' :: rest := by
    rw [List.dropWhile_append_of_pos hkey.bare]
    simp [isBare]
  have hsome : key.toList ≠ [] := mt String.toList_eq_nil_iff.mp hkey.nonempty
  obtain ⟨c, more, hcons, hc⟩ := hkey.exists_toList_eq_cons
  have hquote := ne_of_accepts hc (show isBare '"' = false by decide)
  have hsingle := ne_of_accepts hc (show isBare '\'' = false by decide)
  unfold simpleKey
  split
  · simp_all
  · simp_all
  · rw [htake, hdrop, if_neg (by simpa using hsome), String.ofList_toList]

theorem keyPath_append (rest : List Char) :
    keyPath (key.toList ++ ' ' :: '=' :: rest) =
      some ([⟨key, key.toList ++ ' ' :: '=' :: rest⟩], '=' :: rest) := by
  rw [keyPath, maxDepth, keyPathWithin]
  simp only [hkey.skipBlanks_append, hkey.simpleKey_append]
  rfl

end IsBareKey

theorem define_new {entries : Entries} {key : Key} (hnew : entries.item? key.name = none)
    (item : Item) : entries.define [key] item = some (entries ++ [(key, item)]) := by
  simp [Entries.define, Entries.alter, hnew]

/-- A line takes a new key with its number into the open section. -/
theorem expression_numberLine {key : String} {number : ℕ} (hkey : IsBareKey key)
    (hnumber : number ≤ greatestInteger) {draft : Draft} (hnew : draft.entries.item? key = none)
    (rest : List Char) :
    expression draft (numberLine key number rest) =
      some ({ draft with entries := draft.entries ++ [numberEntry key number rest] }, rest) := by
  obtain ⟨c, more, hcons, hc⟩ := hkey.exists_toList_eq_cons
  have hbracket := ne_of_accepts hc (show isBare '[' = false by decide)
  -- a line that starts with a character of a bare key opens no table
  unfold expression
  split
  · rename_i hline
    simp_all [numberLine]
  · rename_i hline
    simp_all [numberLine]
  · have hpath := hkey.keyPath_append (' ' :: (Nat.toDigits 10 number ++ '\n' :: rest))
    have hvalue : literal (skipBlanks (' ' :: (Nat.toDigits 10 number ++ '\n' :: rest))) =
        some (.integer number, '\n' :: rest) := by
      rw [skipBlanks_toDigits, literal_toDigits hnumber]
    have hdefine : draft.define [⟨key, numberLine key number rest⟩] (.integer number)
        (skipBlanks (' ' :: (Nat.toDigits 10 number ++ '\n' :: rest))) =
        some { draft with entries := draft.entries ++ [numberEntry key number rest] } := by
      rw [Draft.define, define_new hnew, skipBlanks_toDigits]
      rfl
    simp only [bind, Option.bind_eq_some_iff]
    exact ⟨_, hpath, _, rfl, _, hvalue, rest, rfl, _, hdefine, rfl⟩

theorem lines_numberLine {key : String} {number : ℕ} (hkey : IsBareKey key)
    (hnumber : number ≤ greatestInteger) {draft : Draft} (hnew : draft.entries.item? key = none)
    (bound : ℕ) (rest : List Char) :
    lines (bound + 1) draft (numberLine key number rest) =
      lines bound { draft with entries := draft.entries ++ [numberEntry key number rest] }
        rest := by
  have hskip : skipBlanks (numberLine key number rest) = numberLine key number rest :=
    hkey.skipBlanks_append _
  obtain ⟨c, more, hcons, hc⟩ := hkey.exists_toList_eq_cons
  -- such a line is no comment and not an empty line
  have hcomment := ne_of_accepts hc (show isBare '#' = false by decide)
  have hfeed := ne_of_accepts hc (show isBare '\n' = false by decide)
  have hreturn := ne_of_accepts hc (show isBare '\r' = false by decide)
  have hline : newline? (numberLine key number rest) = none := by
    rw [numberLine, hcons, List.cons_append]
    unfold newline?
    split <;> simp_all
  rw [lines, hskip]
  split
  · rename_i hempty
    simp [numberLine, hcons] at hempty
  · rename_i hhash
    simp [numberLine, hcons, hcomment] at hhash
  · rw [hline, expression_numberLine hkey hnumber hnew]
    rfl

/-- A document of such lines is read line by line, as long as its keys are new. -/
theorem lines_numberLines {pairs : List (String × ℕ)} (hkeys : ∀ pair ∈ pairs, IsBareKey pair.1)
    (hnumbers : ∀ pair ∈ pairs, pair.2 ≤ greatestInteger) (draft : Draft)
    (hnew : (draft.entries.names ++ pairs.map Prod.fst).Nodup) {bound : ℕ}
    (hbound : pairs.length < bound) :
    lines bound draft (numberLines pairs) =
      some { draft with entries := draft.entries ++ numberEntries pairs } := by
  induction pairs generalizing draft bound with
  | nil =>
      obtain ⟨bound, rfl⟩ := Nat.exists_eq_succ_of_ne_zero (Nat.ne_zero_of_lt hbound)
      simp [lines, numberLines, numberEntries, skipBlanks]
  | cons pair pairs ih =>
      obtain ⟨key, number⟩ := pair
      obtain ⟨bound, rfl⟩ := Nat.exists_eq_succ_of_ne_zero (Nat.ne_zero_of_lt hbound)
      obtain ⟨hkey, hkeys⟩ := List.forall_mem_cons.mp hkeys
      obtain ⟨hnumber, hnumbers⟩ := List.forall_mem_cons.mp hnumbers
      rw [List.map_cons] at hnew
      have hfresh : draft.entries.item? key = none := by
        rw [Entries.item?_eq_none_iff]
        exact fun hmem => List.disjoint_of_nodup_append hnew hmem List.mem_cons_self
      let after : Draft :=
        { draft with entries := draft.entries ++ [numberEntry key number (numberLines pairs)] }
      have hlater : (after.entries.names ++ pairs.map Prod.fst).Nodup := by
        simpa [after, Entries.names, numberEntry] using hnew
      rw [numberLines, lines_numberLine hkey hnumber hfresh,
        ih hkeys hnumbers after hlater (Nat.lt_of_succ_lt_succ hbound)]
      simp [after, numberEntries]

theorem length_le_numberLines (pairs : List (String × ℕ)) :
    pairs.length ≤ (numberLines pairs).length := by
  induction pairs with
  | nil => exact Nat.zero_le _
  | cons pair pairs ih =>
      obtain ⟨key, number⟩ := pair
      simp only [numberLines, numberLine, List.length_append, List.length_cons]
      omega

theorem map_numberEntries (pairs : List (String × ℕ)) :
    (numberEntries pairs).map (fun entry => (entry.1.name, (entry.2.shape entry.1).1)) =
      pairs.map fun pair => (pair.1, .integer pair.2) := by
  induction pairs with
  | nil => rfl
  | cons pair pairs ih =>
      obtain ⟨key, number⟩ := pair
      rw [numberEntries, List.map_cons, List.map_cons, ih]
      rfl

theorem numberLines_ne_mark_cons {pairs : List (String × ℕ)}
    (hkeys : ∀ pair ∈ pairs, IsBareKey pair.1) (rest : List Char) :
    numberLines pairs ≠ '\ufeff' :: rest := by
  intro hmark
  cases pairs with
  | nil => cases hmark
  | cons pair pairs =>
      obtain ⟨c, more, hcons, hc⟩ := (hkeys pair List.mem_cons_self).exists_toList_eq_cons
      rw [numberLines, numberLine, hcons, List.cons_append, List.cons.injEq] at hmark
      exact ne_of_accepts hc (by decide) hmark.1

/-- **A document of lines that give numbers reads back.**  Its settings are the keys with
their numbers, in the order of the lines. -/
theorem settings?_numberLines {pairs : List (String × ℕ)}
    (hkeys : ∀ pair ∈ pairs, IsBareKey pair.1)
    (hnumbers : ∀ pair ∈ pairs, pair.2 ≤ greatestInteger) (hnodup : (pairs.map Prod.fst).Nodup) :
    ∃ settings, settings? (String.ofList (numberLines pairs)) = some settings ∧
      settings.map (fun setting => (setting.key, setting.value)) =
        pairs.map fun pair => (pair.1, .integer pair.2) := by
  have hlines := lines_numberLines hkeys hnumbers .empty hnodup
    (Nat.lt_succ_of_le (length_le_numberLines pairs))
  have hread : settings? (String.ofList (numberLines pairs)) =
      some ((numberEntries pairs).map fun entry =>
        ⟨entry.1.name, entry.1.start.position (numberLines pairs), (entry.2.shape entry.1).1,
          (entry.2.shape entry.1).2.position (numberLines pairs)⟩) := by
    unfold settings?
    rw [String.toList_ofList]
    dsimp only
    split
    · rename_i rest hmark
      exact absurd hmark (numberLines_ne_mark_cons hkeys rest)
    · rw [hlines]
      rfl
  refine ⟨_, hread, ?_⟩
  rw [← map_numberEntries, List.map_map]
  rfl

end HandleTable.Toml
