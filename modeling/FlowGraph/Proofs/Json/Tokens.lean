import FlowGraph.Json.Printer
import FlowGraph.Json.Reader
import Mathlib.Tactic.SplitIfs

/-!
# Reading back numbers and texts

A written integer is read as the integer, and a quoted text as the text, whatever comes behind
them. The reader takes a number as long as it meets digits, so what comes behind a number must not
continue it; and it takes a control character's number together with the next one, should half of a
surrogate pair be met, so what comes behind the first must be readable too.

* `Json.Ends` — what may stand behind a number.
* `Json.readNumber_toString` — numbers.
* `Json.Resumes` — what may stand behind a control character's number.
* `Json.readString_quoted` — texts.
-/

namespace FlowGraph.Json

/-! ### Digits -/

theorem isDigit_eq (c : Char) : isDigit c = c.isDigit := by
  rw [isDigit, Char.isDigit, Bool.decide_and]
  rfl

/-- Only zero is written with a leading zero. -/
theorem head?_toDigits {n : Nat} (h : (Nat.toDigits 10 n).head? = some '0') : n = 0 := by
  induction n using Nat.strongRecOn with
  | ind n ih =>
      rw [Nat.toDigits_eq_if (by decide)] at h
      split at h
      · next hlt =>
        have hall : ∀ m < 10, [Nat.digitChar m].head? = some '0' → m = 0 := by decide
        exact hall n hlt h
      · next hge =>
        have hhead : (Nat.toDigits 10 (n / 10)).head? = some '0' := by
          cases hds : Nat.toDigits 10 (n / 10) with
          | nil => exact absurd hds Nat.toDigits_ne_nil
          | cons c ds =>
              rw [hds] at h
              exact h
        have hzero := ih (n / 10) (by omega) hhead
        omega

theorem takeWhile_digits {ds rest : List Char} (hds : ∀ c ∈ ds, isDigit c = true)
    (hrest : ∀ c ∈ rest.head?, isDigit c = false) :
    (ds ++ rest).takeWhile isDigit = ds ∧ (ds ++ rest).dropWhile isDigit = rest := by
  rw [List.takeWhile_append_of_pos hds, List.dropWhile_append_of_pos hds]
  cases rest with
  | nil => exact ⟨List.append_nil _, rfl⟩
  | cons c rest =>
      have hc := hrest c rfl
      rw [List.takeWhile_cons_of_neg (by simp [hc]), List.dropWhile_cons_of_neg (by simp [hc])]
      exact ⟨List.append_nil _, rfl⟩

/-! ### Numbers -/

/-- What may stand behind a number: anything that does not continue it. -/
def Ends (rest : List Char) : Prop :=
  ∀ c ∈ rest.head?, isDigit c = false ∧ c ≠ '.' ∧ c ≠ 'e' ∧ c ≠ 'E'

theorem Ends.nil : Ends [] := fun _ h => nomatch h

theorem Ends.readFraction {rest : List Char} (h : Ends rest) :
    readFraction rest = some (none, rest) := by
  cases rest with
  | nil => rfl
  | cons c rest =>
      have hc := (h c rfl).2.1
      unfold Json.readFraction
      split
      · next heq => exact absurd (List.cons.inj heq).1 hc
      · rfl

theorem Ends.readExponent {rest : List Char} (h : Ends rest) :
    readExponent rest = some (none, rest) := by
  cases rest with
  | nil => rfl
  | cons c rest =>
      obtain ⟨-, -, hlower, hupper⟩ := h c rfl
      unfold Json.readExponent
      split
      · next heq => exact absurd (List.cons.inj heq).1 hlower
      · next heq => exact absurd (List.cons.inj heq).1 hupper
      · rfl

theorem ofDigits_toDigits (n : Nat) : ofDigits (Nat.toDigits 10 n) = n :=
  Nat.ofDigitChars_toDigits (by decide) (by decide)

theorem isDigit_toDigits (n : Nat) : ∀ c ∈ Nat.toDigits 10 n, isDigit c = true := fun c hc =>
  (isDigit_eq c).trans (Nat.isDigit_of_mem_toDigits (by decide) (by decide) hc)

/-- A sign is taken off, and the digits behind it are taken for the number that they write. -/
theorem readNumber_digits (negative : Bool) (n : Nat) {rest : List Char} (hrest : Ends rest) :
    readNumber ((if negative then ['-'] else []) ++ (Nat.toDigits 10 n ++ rest))
      = some (numberValue negative (Nat.toDigits 10 n) none none, rest) := by
  obtain ⟨htake, hdrop⟩ := takeWhile_digits (isDigit_toDigits n) fun c hc => (hrest c hc).1
  have hwell : ((Nat.toDigits 10 n).isEmpty
      || (Nat.toDigits 10 n).head? == some '0' && (Nat.toDigits 10 n).length != 1) = false := by
    rw [List.isEmpty_eq_false_iff.2 Nat.toDigits_ne_nil, Bool.false_or, Bool.and_eq_false_iff]
    by_cases hzero : n = 0
    · exact .inr (by rw [hzero]; rfl)
    · exact .inl (beq_eq_false_iff_ne.2 fun h => hzero (head?_toDigits h))
  cases negative with
  | true =>
      show readNumber ('-' :: (Nat.toDigits 10 n ++ rest)) = _
      simp only [readNumber, htake, hdrop, hwell, hrest.readFraction, Option.bind_eq_bind,
        Option.bind_some, hrest.readExponent, Bool.false_eq_true, if_false, Option.pure_def]
  | false =>
      show readNumber (Nat.toDigits 10 n ++ rest) = _
      unfold readNumber
      split
      next negative cs hsign =>
        split at hsign
        · next r heq =>
          have hmem : '-' ∈ Nat.toDigits 10 n := by
            cases hds : Nat.toDigits 10 n with
            | nil => exact absurd hds Nat.toDigits_ne_nil
            | cons d ds =>
                rw [hds] at heq
                simp [(List.cons.inj heq).1]
          exact absurd (isDigit_toDigits n '-' hmem) (by decide)
        · cases hsign
          simp only [htake, hdrop, hwell, hrest.readFraction, Option.bind_eq_bind,
            Option.bind_some, hrest.readExponent, Bool.false_eq_true, if_false, Option.pure_def]

theorem numberValue_unsigned {n : Nat} (h : n < 2 ^ 64) :
    numberValue false (Nat.toDigits 10 n) none none = .int n := by
  rw [numberValue, ofDigits_toDigits]
  exact if_pos h

theorem numberValue_signed {n : Nat} (hpos : 0 < n) (h : n ≤ 2 ^ 63) :
    numberValue true (Nat.toDigits 10 n) none none = .int (-n) := by
  have hfits : ¬ (n = 0 ∨ 2 ^ 63 < n) := by omega
  rw [numberValue, ofDigits_toDigits]
  exact if_neg hfits

/-- **Numbers are read back** if they fit a signed or an unsigned word. -/
theorem readNumber_toString {n : Int} (hlow : -2 ^ 63 ≤ n) (hhigh : n < 2 ^ 64) {rest : List Char}
    (hrest : Ends rest) : readNumber ((toString n).toList ++ rest) = some (.int n, rest) := by
  cases n with
  | ofNat n =>
      have hread := readNumber_digits false n hrest
      rw [numberValue_unsigned (Int.ofNat_lt.1 hhigh)] at hread
      show readNumber (n.repr.toList ++ rest) = _
      rw [Nat.toList_repr]
      exact hread
  | negSucc n =>
      have hread := readNumber_digits true (n + 1) hrest
      rw [numberValue_signed (Nat.succ_pos n) (by omega)] at hread
      show readNumber (("-" ++ (n + 1).repr).toList ++ rest) = _
      rw [String.toList_append, Nat.toList_repr, List.append_assoc]
      exact hread

/-- A written number starts with its sign or with a digit. -/
theorem toString_cases (n : Int) :
    ∃ c cs, (toString n).toList = c :: cs ∧ (c = '-' ∨ isDigit c = true) := by
  cases n with
  | ofNat n =>
      show ∃ c cs, n.repr.toList = c :: cs ∧ _
      rw [Nat.toList_repr]
      cases hds : Nat.toDigits 10 n with
      | nil => exact absurd hds Nat.toDigits_ne_nil
      | cons d ds => exact ⟨d, ds, rfl, .inr (isDigit_toDigits n d (by rw [hds]; simp))⟩
  | negSucc n =>
      show ∃ c cs, ("-" ++ (n + 1).repr).toList = c :: cs ∧ _
      rw [String.toList_append]
      exact ⟨'-', (n + 1).repr.toList, rfl, .inl rfl⟩

/-! ### Texts -/

/-- What may stand behind the number of a control character: no start of a second number, unless
that one can be read. -/
def Resumes (cs : List Char) : Prop :=
  ∀ e f g h rest, cs = '\\' :: 'u' :: e :: f :: g :: h :: rest → (hexUnit? e f g h).isSome = true

/-- Control characters are written as four digits, which are read as their numbers. -/
theorem controlDigits_cases {n : Nat} (h : n < 0x20) :
    ∃ a b c d, controlDigits n = [a, b, c, d] ∧ hexUnit? a b c d = some n := by
  have hall : ∀ m : Fin 0x20, controlDigits m
      = ['0', '0', (controlDigits m).getD 2 '0', (controlDigits m).getD 3 '0'] ∧
        hexUnit? '0' '0' ((controlDigits m).getD 2 '0') ((controlDigits m).getD 3 '0')
          = some m.val := by
    decide +kernel
  exact ⟨_, _, _, _, hall ⟨n, h⟩⟩

/-- A character inside quotes is a backslash with a name, a backslash with a number, or itself. -/
theorem escapeChar_cases (c : Char) :
    (∃ x, namedEscape? x = some c ∧ escapeChar c = ['\\', x]) ∨
      (∃ x y z w, hexUnit? x y z w = some c.toNat ∧ c.toNat < 0x20 ∧
        escapeChar c = ['\\', 'u', x, y, z, w]) ∨
      (c ≠ '"' ∧ c ≠ '\\' ∧ ¬ c.toNat < 0x20 ∧ escapeChar c = [c]) := by
  unfold escapeChar
  split_ifs with hquote hback hline hreturn htab hdelete hfeed hcontrol
  · exact .inl ⟨'"', by rw [hquote]; rfl, rfl⟩
  · exact .inl ⟨'\\', by rw [hback]; rfl, rfl⟩
  · exact .inl ⟨'n', by rw [hline]; rfl, rfl⟩
  · exact .inl ⟨'r', by rw [hreturn]; rfl, rfl⟩
  · exact .inl ⟨'t', by rw [htab]; rfl, rfl⟩
  · exact .inl ⟨'b', by rw [hdelete]; rfl, rfl⟩
  · exact .inl ⟨'f', by rw [hfeed]; rfl, rfl⟩
  · obtain ⟨x, y, z, w, hdigits, hunit⟩ := controlDigits_cases hcontrol
    exact .inr (.inl ⟨x, y, z, w, hunit, hcontrol, by rw [hdigits]⟩)
  · exact .inr (.inr ⟨hquote, hback, hcontrol, rfl⟩)

/-- A unit that is no half of a pair is read on its own. -/
theorem readString_unit {t : ReadText} {a b c d : Char} {n : Nat} {cs : List Char}
    (hn : hexUnit? a b c d = some n) (hlt : n < 0xD800) (hcs : Resumes cs) :
    readString t ('\\' :: 'u' :: a :: b :: c :: d :: cs)
      = readString (t.push (Char.ofNat n)) cs := by
  have hpush : t.pushUnit n = t.push (Char.ofNat n) := if_neg (by omega)
  by_cases hnext : ∃ e f g h rest, cs = '\\' :: 'u' :: e :: f :: g :: h :: rest
  · obtain ⟨e, f, g, h, rest, rfl⟩ := hnext
    obtain ⟨low, hlow⟩ := Option.isSome_iff_exists.1 (hcs e f g h rest rfl)
    have hsingle : ¬ (0xD800 ≤ n ∧ n ≤ 0xDBFF ∧ 0xDC00 ≤ low ∧ low ≤ 0xDFFF) := by omega
    rw [readString, hn, hlow]
    simp only
    rw [if_neg hsingle, hpush]
  · rw [readString, hn]
    · exact congrArg (readString · cs) hpush
    · exact fun e f g h rest heq => hnext ⟨e, f, g, h, rest, heq⟩

/-- A written character is read back. -/
theorem readString_escapeChar (t : ReadText) (c : Char) {cs : List Char} (hcs : Resumes cs) :
    readString t (escapeChar c ++ cs) = readString (t.push c) cs := by
  rcases escapeChar_cases c with ⟨x, hname, heq⟩ | ⟨x, y, z, w, hunit, hcontrol, heq⟩ |
    ⟨hquote, hback, hcontrol, heq⟩
  · have hne : x ≠ 'u' := by
      rintro rfl
      cases hname
    rw [heq, List.cons_append, List.cons_append, List.nil_append, readString, hname]
    all_goals grind
  · rw [heq]
    exact (readString_unit hunit (by omega) hcs).trans (by rw [Char.ofNat_toNat])
  · rw [heq, List.cons_append, List.nil_append, readString]
    · exact if_neg (by simp [hback, hcontrol])
    · exact hquote
    all_goals grind

/-- A written character may stand behind a control character's number. -/
theorem resumes_escapeChar (c : Char) (cs : List Char) : Resumes (escapeChar c ++ cs) := by
  intro e f g h rest hstart
  rcases escapeChar_cases c with ⟨x, hname, heq⟩ | ⟨x, y, z, w, hunit, -, heq⟩ |
    ⟨-, hback, -, heq⟩
  · rw [heq] at hstart
    have hu : x = 'u' := by grind
    rw [hu] at hname
    cases hname
  · rw [heq] at hstart
    simp only [List.cons_append, List.nil_append, List.cons.injEq, true_and] at hstart
    obtain ⟨rfl, rfl, rfl, rfl, -⟩ := hstart
    rw [hunit]
    rfl
  · rw [heq] at hstart
    exact absurd (List.cons.inj hstart).1 hback

/-- Quoted characters are read up to the closing quote. -/
theorem readString_flatMap (cs : List Char) (t : ReadText) (rest : List Char) :
    readString t (cs.flatMap escapeChar ++ '"' :: rest)
      = some (⟨cs.reverse ++ t.reversed, t.sound⟩, rest) := by
  have hresumes : ∀ cs : List Char, Resumes (cs.flatMap escapeChar ++ '"' :: rest) := by
    intro cs
    cases cs with
    | nil => exact fun e f g h r hstart => absurd (List.cons.inj hstart).1 (by decide)
    | cons c cs =>
        rw [List.flatMap_cons, List.append_assoc]
        exact resumes_escapeChar c _
  induction cs generalizing t with
  | nil => rw [List.flatMap_nil, List.nil_append, readString, List.reverse_nil, List.nil_append]
  | cons c cs ih =>
      rw [List.flatMap_cons, List.append_assoc, readString_escapeChar t c (hresumes cs), ih,
        List.reverse_cons, List.append_assoc]
      rfl

/-- **Texts are read back.** -/
theorem readString_quoted (s : String) (rest : List Char) :
    ∃ t, readString ⟨[], true⟩ (s.toList.flatMap escapeChar ++ '"' :: rest) = some (t, rest) ∧
      t.value? = some s := by
  refine ⟨_, readString_flatMap s.toList ⟨[], true⟩ rest, ?_⟩
  rw [ReadText.value?, List.append_nil, List.reverse_reverse, String.ofList_toList]
  rfl

end FlowGraph.Json
