import FlowGraph.Proofs.Json.Tokens

/-!
# Reading back values

A value without floating-point numbers that is written over several lines is read as itself. The
proof follows the value: each part is read where it stands, behind any blanks and before whatever
the printer puts next, with as much fuel as the part's text is long.

* `Json.Plain` — the values that are written without loss.
* `Json.ReadBack` — a value is read from where it stands.
* `Json.readItems_pretty`, `Json.readMembers_pretty` — a row of items or members.
* `Json.Plain.readBack` — every plain value.
* `Json.Plain.parse?_pretty` — a whole text.
-/

namespace FlowGraph.Json

/-! ### Plain values -/

/-- A value made of texts, truth values and integers that fit a word. -/
inductive Plain : Json → Prop
  | null : Plain null
  | bool (b : Bool) : Plain (bool b)
  | int {n : Int} (low : -2 ^ 63 ≤ n) (high : n < 2 ^ 64) : Plain (int n)
  | text (s : String) : Plain (text s)
  | array {items : List Json} (all : ∀ j ∈ items, Plain j) : Plain (array items)
  | object {members : List (String × Json)} (all : ∀ m ∈ members, Plain m.2) :
      Plain (object members)

/-! ### Blanks -/

theorem skipBlanks_idem (cs : List Char) : skipBlanks (skipBlanks cs) = skipBlanks cs := by
  induction cs with
  | nil => rfl
  | cons c cs ih =>
      rw [skipBlanks]
      split
      · exact ih
      · next hc => rw [skipBlanks, if_neg hc]

theorem skipBlanks_cons {c : Char} (hc : isBlank c = false) (cs : List Char) :
    skipBlanks (c :: cs) = c :: cs := by
  rw [skipBlanks, if_neg (by rw [hc]; decide)]

theorem skipBlanks_append {bs : List Char} (h : ∀ c ∈ bs, isBlank c = true) (cs : List Char) :
    skipBlanks (bs ++ cs) = skipBlanks cs := by
  induction bs with
  | nil => rfl
  | cons b bs ih =>
      rw [List.cons_append, skipBlanks, if_pos (h b (by simp))]
      exact ih fun c hc => h c (by simp [hc])

theorem skipBlanks_newLine (level : Nat) (cs : List Char) :
    skipBlanks ((newLine level).toList ++ cs) = skipBlanks cs := by
  refine skipBlanks_append (fun c hc => ?_) cs
  rw [newLine, String.toList_ofList] at hc
  rcases List.mem_cons.1 hc with rfl | hc
  · rfl
  · rw [List.eq_of_mem_replicate hc]
    rfl

theorem one_le_length_newLine (level : Nat) : 1 ≤ (newLine level).toList.length := by
  rw [newLine, String.toList_ofList]
  exact Nat.succ_pos _

/-- Blanks before a value are passed over. -/
theorem readValue_skipBlanks (fuel : Nat) (cs : List Char) :
    readValue fuel (skipBlanks cs) = readValue fuel cs := by
  cases fuel with
  | zero => rfl
  | succ fuel => rw [readValue, readValue, skipBlanks_idem]

/-- Blanks before an item are passed over. -/
theorem readItems_skipBlanks (fuel : Nat) (before : List Json) (cs : List Char) :
    readItems fuel before (skipBlanks cs) = readItems fuel before cs := by
  cases fuel with
  | zero => rfl
  | succ fuel => rw [readItems, readItems, readValue_skipBlanks]

/-- Blanks before a member are passed over. -/
theorem readMembers_skipBlanks (fuel : Nat) (before : List (Option String × Json))
    (cs : List Char) : readMembers fuel before (skipBlanks cs) = readMembers fuel before cs := by
  cases fuel with
  | zero => rfl
  | succ fuel => rw [readMembers, readMembers, skipBlanks_idem]

theorem ends_comma (cs : List Char) : Ends (',' :: cs) := by
  intro c hc
  obtain rfl := Option.mem_some_iff.1 hc
  decide

theorem ends_newLine (level : Nat) (cs : List Char) : Ends ((newLine level).toList ++ cs) := by
  intro c hc
  rw [newLine, String.toList_ofList] at hc
  obtain rfl := Option.mem_some_iff.1 hc
  decide

/-! ### Rows -/

/-- A value is read from where it stands: before anything that does not continue a number, and with
more fuel than its text is long. -/
def ReadBack (j : Json) : Prop :=
  ∀ (level fuel : Nat) (rest : List Char), Ends rest → (prettyAt level j).toList.length < fuel →
    readValue fuel ((prettyAt level j).toList ++ rest) = some (j, rest)

/-- Reading takes a step of its own, besides those that the parts of the value take. -/
theorem ReadBack.of_succ {j : Json}
    (h : ∀ (level fuel : Nat) (rest : List Char), Ends rest →
      (prettyAt level j).toList.length ≤ fuel →
      readValue (fuel + 1) ((prettyAt level j).toList ++ rest) = some (j, rest)) : ReadBack j := by
  intro level fuel rest hrest hfuel
  cases fuel with
  | zero => cases hfuel
  | succ fuel => exact h level fuel rest hrest (Nat.le_of_lt_succ hfuel)

/-- A value is read from a line of its own. -/
theorem ReadBack.line {j : Json} (h : ReadBack j) {level level' fuel : Nat} {rest : List Char}
    (hrest : Ends rest) (hfuel : (prettyAt level j).toList.length < fuel) :
    readValue fuel ((newLine level').toList ++ ((prettyAt level j).toList ++ rest))
      = some (j, rest) := by
  rw [← readValue_skipBlanks, skipBlanks_newLine, readValue_skipBlanks]
  exact h level fuel rest hrest hfuel

theorem toList_prettyItems_single (level : Nat) (j : Json) :
    (prettyItems level [j]).toList = (newLine level).toList ++ (prettyAt level j).toList := by
  rw [prettyItems, String.toList_append]

theorem toList_prettyItems_cons (level : Nat) (j k : Json) (js : List Json) :
    (prettyItems level (j :: k :: js)).toList
      = (newLine level).toList
        ++ ((prettyAt level j).toList ++ ',' :: (prettyItems level (k :: js)).toList) := by
  rw [prettyItems]
  · simp only [String.toList_append, List.append_assoc]
    rfl
  · exact List.cons_ne_nil k js

/-- An item is read from its line. Behind a comma there is another item, behind a closing bracket
none. -/
theorem readItems_step {j : Json} (hj : ReadBack j) {level level' fuel : Nat} (before : List Json)
    {rest : List Char} (hrest : Ends rest) (hfuel : (prettyAt level j).toList.length < fuel) :
    (∀ r, skipBlanks rest = ',' :: r →
      readItems (fuel + 1) before ((newLine level').toList ++ ((prettyAt level j).toList ++ rest))
        = readItems fuel (j :: before) r) ∧
    ∀ r, skipBlanks rest = ']' :: r →
      readItems (fuel + 1) before ((newLine level').toList ++ ((prettyAt level j).toList ++ rest))
        = some (.array (j :: before).reverse, r) := by
  rw [readItems, hj.line hrest hfuel]
  constructor
  · intro r hr
    simp only [hr]
  · intro r hr
    simp only [hr]

/-- **Items are read back** up to the bracket behind them. -/
theorem readItems_pretty {items : List Json} (hne : items ≠ []) (hread : ∀ j ∈ items, ReadBack j)
    (level level' fuel : Nat) (before : List Json) (rest : List Char)
    (hfuel : (prettyItems level items).toList.length < fuel) :
    readItems fuel before
        ((prettyItems level items).toList ++ ((newLine level').toList ++ ']' :: rest))
      = some (.array (before.reverse ++ items), rest) := by
  induction items generalizing fuel before with
  | nil => exact absurd rfl hne
  | cons j items ih =>
      obtain ⟨fuel, rfl⟩ : ∃ f, fuel = f + 1 := ⟨fuel - 1, by omega⟩
      have hline := one_le_length_newLine level
      have hj := hread j (by simp)
      cases items with
      | nil =>
          have hclose : skipBlanks ((newLine level').toList ++ ']' :: rest) = ']' :: rest := by
            rw [skipBlanks_newLine, skipBlanks_cons rfl]
          rw [toList_prettyItems_single, List.length_append] at hfuel
          rw [toList_prettyItems_single, List.append_assoc,
            (readItems_step hj before (ends_newLine _ _) (by omega)).2 rest hclose,
            List.reverse_cons]
      | cons k items =>
          rw [toList_prettyItems_cons, List.length_append, List.length_append, List.length_cons]
            at hfuel
          rw [toList_prettyItems_cons, List.append_assoc, List.append_assoc, List.cons_append,
            (readItems_step hj before (ends_comma _) (by omega)).1 _ (skipBlanks_cons rfl _),
            ih (List.cons_ne_nil k items) (fun x hx => hread x (by simp [hx])) fuel (j :: before)
              (by omega), List.reverse_cons, List.append_assoc]
          rfl

theorem toList_quote (s : String) :
    (quote s).toList = '"' :: (s.toList.flatMap escapeChar ++ ['"']) := by
  rw [quote, String.toList_ofList]
  rfl

theorem toList_prettyMembers_single (level : Nat) (name : String) (j : Json) :
    (prettyMembers level [(name, j)]).toList
      = (newLine level).toList
        ++ ((quote name).toList ++ ':' :: ' ' :: (prettyAt level j).toList) := by
  rw [prettyMembers]
  simp only [String.toList_append, List.append_assoc]
  rfl

theorem toList_prettyMembers_cons (level : Nat) (name : String) (j : Json) (m : String × Json)
    (ms : List (String × Json)) :
    (prettyMembers level ((name, j) :: m :: ms)).toList
      = (newLine level).toList
        ++ ((quote name).toList ++ ':' :: ' ' :: ((prettyAt level j).toList
          ++ ',' :: (prettyMembers level (m :: ms)).toList)) := by
  rw [prettyMembers]
  · simp only [String.toList_append, List.append_assoc]
    rfl
  · exact List.cons_ne_nil m ms

/-- The name of a member and its value are read one after the other. Behind a comma there is
another member, behind a closing brace none. -/
theorem readMembers_step {j : Json} (hj : ReadBack j) {level level' fuel : Nat} (name : String)
    (before : List (Option String × Json)) {rest : List Char} (hrest : Ends rest)
    (hfuel : (prettyAt level j).toList.length < fuel) :
    (∀ r, skipBlanks rest = ',' :: r →
      readMembers (fuel + 1) before ((newLine level').toList ++ ((quote name).toList
          ++ ':' :: ' ' :: ((prettyAt level j).toList ++ rest)))
        = readMembers fuel ((some name, j) :: before) r) ∧
    ∀ r, skipBlanks rest = '\x7d' :: r →
      readMembers (fuel + 1) before ((newLine level').toList ++ ((quote name).toList
          ++ ':' :: ' ' :: ((prettyAt level j).toList ++ rest)))
        = some (ofMembers ((some name, j) :: before), r) := by
  obtain ⟨t, ht, hvalue⟩ := readString_quoted name
    (':' :: ' ' :: ((prettyAt level j).toList ++ rest))
  have hitem : readValue fuel (' ' :: ((prettyAt level j).toList ++ rest)) = some (j, rest) := by
    rw [← readValue_skipBlanks, skipBlanks, if_pos (by decide), readValue_skipBlanks]
    exact hj level fuel rest hrest hfuel
  have hcolon := skipBlanks_cons (c := ':') rfl (' ' :: ((prettyAt level j).toList ++ rest))
  rw [readMembers, skipBlanks_newLine, toList_quote, List.cons_append, skipBlanks_cons rfl,
    List.append_assoc, List.singleton_append]
  constructor
  · intro r hr
    simp only [ht, hcolon, hitem, hvalue, hr]
  · intro r hr
    simp only [ht, hcolon, hitem, hvalue, hr]

/-- Members whose names are all texts make up an object. -/
theorem ofMembers_reverse (members : List (String × Json)) :
    ofMembers (members.map fun m => (some m.1, m.2)).reverse = .object members := by
  have hnames : (members.map fun m => (some m.1, m.2)).mapM
      (fun m : Option String × Json => m.1.map fun name => (name, m.2)) = some members := by
    induction members with
    | nil => rfl
    | cons m ms ih =>
        rw [List.map_cons, List.mapM_cons, ih]
        rfl
  rw [ofMembers, List.reverse_reverse, hnames]

/-- **Members are read back** up to the brace behind them. -/
theorem readMembers_pretty {members : List (String × Json)} (hne : members ≠ [])
    (hread : ∀ m ∈ members, ReadBack m.2) (level level' fuel : Nat)
    (before : List (String × Json)) (rest : List Char)
    (hfuel : (prettyMembers level members).toList.length < fuel) :
    readMembers fuel (before.map fun m => (some m.1, m.2)).reverse
        ((prettyMembers level members).toList ++ ((newLine level').toList ++ '\x7d' :: rest))
      = some (.object (before ++ members), rest) := by
  induction members generalizing fuel before with
  | nil => exact absurd rfl hne
  | cons m members ih =>
      obtain ⟨name, j⟩ := m
      obtain ⟨fuel, rfl⟩ : ∃ f, fuel = f + 1 := ⟨fuel - 1, by omega⟩
      have hline := one_le_length_newLine level
      have hj : ReadBack j := hread (name, j) (by simp)
      have hnext : (some name, j) :: (before.map fun m => (some m.1, m.2)).reverse
          = ((before ++ [(name, j)]).map fun m => (some m.1, m.2)).reverse := by
        rw [List.map_append, List.reverse_append]
        rfl
      cases members with
      | nil =>
          rw [toList_prettyMembers_single] at hfuel ⊢
          simp only [List.length_append, List.length_cons] at hfuel
          simp only [List.append_assoc, List.cons_append]
          have hclose :
              skipBlanks ((newLine level').toList ++ '\x7d' :: rest) = '\x7d' :: rest := by
            rw [skipBlanks_newLine, skipBlanks_cons rfl]
          rw [(readMembers_step hj name _ (ends_newLine _ _) (by omega)).2 rest hclose, hnext,
            ofMembers_reverse]
      | cons k members =>
          rw [toList_prettyMembers_cons] at hfuel ⊢
          simp only [List.length_append, List.length_cons] at hfuel
          simp only [List.append_assoc, List.cons_append]
          rw [(readMembers_step hj name _ (ends_comma _) (by omega)).1 _ (skipBlanks_cons rfl _),
            hnext, ih (List.cons_ne_nil k members) (fun x hx => hread x (by simp [hx])) fuel
              (before ++ [(name, j)]) (by omega), List.append_assoc]
          rfl

/-! ### Values -/

theorem toList_prettyAt_array (level : Nat) (j : Json) (js : List Json) :
    (prettyAt level (array (j :: js))).toList
      = '[' :: ((prettyItems (level + 1) (j :: js)).toList
          ++ ((newLine level).toList ++ [']'])) := by
  rw [prettyAt]
  simp only [String.toList_append, List.append_assoc]
  rfl

theorem toList_prettyAt_object (level : Nat) (m : String × Json) (ms : List (String × Json)) :
    (prettyAt level (object (m :: ms))).toList
      = '\x7b' :: ((prettyMembers (level + 1) (m :: ms)).toList
          ++ ((newLine level).toList ++ ['\x7d'])) := by
  rw [prettyAt]
  simp only [String.toList_append, List.append_assoc]
  rfl

/-- A sign or a digit is none of the characters by which the other values are known. -/
theorem ne_of_number {c d : Char} (hc : c = '-' ∨ isDigit c = true)
    (hd : d ≠ '-' ∧ isDigit d = false) : c ≠ d := by
  rintro rfl
  rcases hc with rfl | hc
  · exact hd.1 rfl
  · rw [hd.2] at hc
    cases hc

theorem isBlank_number {c : Char} (hc : c = '-' ∨ isDigit c = true) : isBlank c = false := by
  have hne := fun d hd => ne_of_number (d := d) hc hd
  simp only [isBlank, hne ' ' (by decide), hne '\n' (by decide), hne '\t' (by decide),
    hne '\r' (by decide), decide_false, Bool.or_false]

/-- How the text of a value starts: with no blank and no closing bracket. -/
theorem prettyAt_cases {j : Json} (hj : j.Plain) (level : Nat) :
    ∃ c cs, (prettyAt level j).toList = c :: cs ∧ isBlank c = false ∧ c ≠ ']' := by
  cases hj with
  | null => exact ⟨'n', _, by rw [prettyAt]; rfl, rfl, by decide⟩
  | bool b =>
      cases b with
      | false => exact ⟨'f', _, by rw [prettyAt]; rfl, rfl, by decide⟩
      | true => exact ⟨'t', _, by rw [prettyAt]; rfl, rfl, by decide⟩
  | @int n =>
      obtain ⟨c, cs, hcs, hc⟩ := toString_cases n
      exact ⟨c, cs, by rw [prettyAt, hcs], isBlank_number hc, ne_of_number hc (by decide)⟩
  | text s => exact ⟨'"', _, by rw [prettyAt, toList_quote], rfl, by decide⟩
  | @array items =>
      cases items with
      | nil => exact ⟨'[', _, by rw [prettyAt]; rfl, rfl, by decide⟩
      | cons j js => exact ⟨'[', _, toList_prettyAt_array level j js, rfl, by decide⟩
  | @object members =>
      cases members with
      | nil => exact ⟨'\x7b', _, by rw [prettyAt]; rfl, rfl, by decide⟩
      | cons m ms => exact ⟨'\x7b', _, toList_prettyAt_object level m ms, rfl, by decide⟩

/-- Anything that starts like a number is read as one. -/
theorem readValue_number {fuel : Nat} {c : Char} (cs : List Char)
    (hc : c = '-' ∨ isDigit c = true) : readValue (fuel + 1) (c :: cs) = readNumber (c :: cs) := by
  have hne := fun d hd => ne_of_number (d := d) hc hd
  rw [readValue, skipBlanks_cons (isBlank_number hc)]
  simp only [hne 'n' (by decide), hne 't' (by decide), hne 'f' (by decide), hne '"' (by decide),
    hne '[' (by decide), hne '\x7b' (by decide), if_false]

/-- A quoted text is read as the text. -/
theorem readValue_quote (fuel : Nat) (s : String) (rest : List Char) :
    readValue (fuel + 1) ((quote s).toList ++ rest) = some (.text s, rest) := by
  obtain ⟨t, ht, hvalue⟩ := readString_quoted s rest
  rw [toList_quote, List.cons_append, List.append_assoc, List.singleton_append, readValue,
    skipBlanks_cons rfl]
  show (readString ⟨[], true⟩ _).map _ = _
  rw [ht]
  simp only [Option.map_some, hvalue]

/-- Behind an opening bracket, items are read. -/
theorem readValue_bracket {fuel : Nat} {cs : List Char} (h : ∀ r, skipBlanks cs ≠ ']' :: r) :
    readValue (fuel + 1) ('[' :: cs) = readItems fuel [] cs := by
  rw [readValue, skipBlanks_cons rfl, ← readItems_skipBlanks]
  -- the branch of the empty array asks for the bracket that `h` excludes
  simp only [Char.reduceEq, if_false, if_true]

/-- Behind an opening brace, members are read. -/
theorem readValue_brace {fuel : Nat} {cs : List Char} (h : ∀ r, skipBlanks cs ≠ '\x7d' :: r) :
    readValue (fuel + 1) ('\x7b' :: cs) = readMembers fuel [] cs := by
  rw [readValue, skipBlanks_cons rfl, ← readMembers_skipBlanks]
  simp only [Char.reduceEq, if_false, if_true]

/-- The text of a row of items starts with no closing bracket. -/
theorem skipBlanks_prettyItems {j : Json} (hj : j.Plain) (js : List Json) (level : Nat)
    (cs r : List Char) : skipBlanks ((prettyItems level (j :: js)).toList ++ cs) ≠ ']' :: r := by
  obtain ⟨c, ds, hds, hblank, hbracket⟩ := prettyAt_cases hj level
  have hstart : ∃ es, (prettyItems level (j :: js)).toList = (newLine level).toList ++ c :: es := by
    cases js with
    | nil => exact ⟨ds, by rw [toList_prettyItems_single, hds]⟩
    | cons k js => exact ⟨_, by rw [toList_prettyItems_cons, hds]; rfl⟩
  obtain ⟨es, hes⟩ := hstart
  rw [hes, List.append_assoc, skipBlanks_newLine, List.cons_append,
    skipBlanks_cons hblank]
  exact fun heq => hbracket (List.cons.inj heq).1

/-- The text of a row of members starts with a quote. -/
theorem skipBlanks_prettyMembers (m : String × Json) (ms : List (String × Json)) (level : Nat)
    (cs r : List Char) :
    skipBlanks ((prettyMembers level (m :: ms)).toList ++ cs) ≠ '\x7d' :: r := by
  have hstart : ∃ es, (prettyMembers level (m :: ms)).toList
      = (newLine level).toList ++ '"' :: es := by
    cases ms with
    | nil => exact ⟨_, by rw [toList_prettyMembers_single, toList_quote]; rfl⟩
    | cons k ms => exact ⟨_, by rw [toList_prettyMembers_cons, toList_quote]; rfl⟩
  obtain ⟨es, hes⟩ := hstart
  rw [hes, List.append_assoc, skipBlanks_newLine, List.cons_append,
    skipBlanks_cons rfl]
  exact fun heq => absurd (List.cons.inj heq).1 (by decide)

/-- **Plain values are read back**, each part where it stands. -/
theorem Plain.readBack {j : Json} (hj : j.Plain) : ReadBack j := by
  induction hj with
  | null =>
      refine .of_succ fun level fuel rest _ _ => ?_
      rw [prettyAt]
      rfl
  | bool b =>
      refine .of_succ fun level fuel rest _ _ => ?_
      rw [prettyAt]
      cases b with
      | false => rfl
      | true => rfl
  | @int n low high =>
      refine .of_succ fun level fuel rest hrest _ => ?_
      obtain ⟨c, cs, hcs, hc⟩ := toString_cases n
      have hread := readNumber_toString low high hrest
      rw [hcs] at hread
      rw [prettyAt, hcs, List.cons_append, readValue_number _ hc]
      exact hread
  | text s =>
      refine .of_succ fun level fuel rest _ _ => ?_
      rw [prettyAt]
      exact readValue_quote fuel s rest
  | @array items all ih =>
      refine .of_succ fun level fuel rest _ hfuel => ?_
      cases items with
      | nil =>
          rw [prettyAt]
          rfl
      | cons j js =>
          rw [toList_prettyAt_array, List.length_cons, List.length_append] at hfuel
          rw [toList_prettyAt_array, List.cons_append, List.append_assoc, List.append_assoc,
            List.singleton_append,
            readValue_bracket (skipBlanks_prettyItems (all j (by simp)) js _ _)]
          exact readItems_pretty (List.cons_ne_nil j js) ih _ _ _ [] rest (by omega)
  | @object members all ih =>
      refine .of_succ fun level fuel rest _ hfuel => ?_
      cases members with
      | nil =>
          rw [prettyAt]
          rfl
      | cons m ms =>
          rw [toList_prettyAt_object, List.length_cons, List.length_append] at hfuel
          rw [toList_prettyAt_object, List.cons_append, List.append_assoc, List.append_assoc,
            List.singleton_append, readValue_brace (skipBlanks_prettyMembers m ms _ _)]
          exact readMembers_pretty (List.cons_ne_nil m ms) ih _ _ _ [] rest (by omega)

/-- **A whole text** written for a plain value is read as that value, to its end. -/
theorem Plain.parsePrefix?_pretty {j : Json} (hj : j.Plain) :
    parsePrefix? j.pretty = some (j, []) := by
  have hread := hj.readBack 0 (2 * j.pretty.toList.length + 2) [] Ends.nil (by
    rw [pretty]
    omega)
  rwa [List.append_nil] at hread

end FlowGraph.Json
