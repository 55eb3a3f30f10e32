import Mathlib.Data.List.Nodup
import FlowGraph.Stock.Repertoire

/-!
# Data of nodes, written and read back

What a node is made of is read from an author's JSON, and written as JSON for whoever takes a
snapshot. The two go different ways: reading fills in what is missing, cuts an arity down to what is
allowed, and takes whatever it cannot make sense of for nothing said; writing spells out every field
but the count of a counter. They meet all the same, because writing only ever sees what reading has
made, or what a run has made of that by counting.

* `Json.Record.ofJson?_fields` — a record that is written out in full is found field by field.
* `Stock.Instance.Fitting` — data that reading can make, but for a count.
* `Stock.Instance.read?_encode` — what fits is read from what is written of it.
* `Instance.decode_encode` — so it is decoded to what it was, with its count at the start.
* `Instance.decode_encode_decode` — to write down what was read and to read it again changes
  nothing.
-/

namespace FlowGraph

/-! ### Fields -/

namespace Json

theorem uint8?_int (n : UInt8) : (int n.toNat).uint8? = some n := by
  rw [uint8?, natBelow?_int n.toNat_lt]
  simp

theorem text?_text (s : String) : (text s).text? = some s := rfl

/-- The whole range of signed 64-bit integers is read back. -/
theorem int64?_intJson (n : Int64) : (Stock.Instance.intJson n).int64? = some n := by
  have hrange : -2 ^ 63 ≤ n.toInt ∧ n.toInt < 2 ^ 63 := ⟨n.le_toInt, n.toInt_lt⟩
  rw [Stock.Instance.intJson, int64?]
  simp only [int?, Option.bind_eq_bind, Option.bind_some, if_pos hrange, Int64.ofInt_toInt]

/-- Of members with different names, each is found by its name. -/
theorem find?_member {ms : List (String × Json)} (h : (ms.map Prod.fst).Nodup) {m : String × Json}
    (hm : m ∈ ms) : ms.find? (·.1 = m.1) = some m := by
  induction ms with
  | nil => cases hm
  | cons k ms ih =>
    rw [List.map_cons, List.nodup_cons] at h
    rcases List.mem_cons.1 hm with rfl | hm
    · exact List.find?_cons_of_pos (by simp)
    · have hne : k.1 ≠ m.1 := fun heq => h.1 (heq ▸ List.mem_map_of_mem hm)
      rw [List.find?_cons_of_neg (by simpa using hne)]
      exact ih h.2 hm

/-- **A record that is written out in full**, each field once, is found field by field. -/
theorem Record.ofJson?_fields (ms : List (String × Json)) (h : (ms.map Prod.fst).Nodup) :
    ofJson? (ms.map Prod.fst) (object ms)
      = some ⟨ms.map fun m => some m.2, false, false, false⟩ := by
  have hfound : (ms.map Prod.fst).map (fun n => (ms.find? (·.1 = n)).map Prod.snd)
      = ms.map fun m => some m.2 := by
    rw [List.map_map]
    refine List.map_congr_left fun m hm => ?_
    rw [Function.comp_apply, find?_member h hm]
    rfl
  have hrepeated : (ms.map Prod.fst).any
      (fun n => decide (1 < (ms.filter (·.1 = n)).length)) = false := by
    rw [List.any_eq_false]
    intro n _
    have hcount := List.nodup_iff_count_le_one.1 h n
    rw [List.count, List.countP_map, List.countP_eq_length_filter] at hcount
    simpa [Function.comp_def, beq_eq_decide] using hcount
  rw [ofJson?, hfound, hrepeated]

end Json

/-- A probe is read from what is written of it. -/
theorem Stock.Probe.read?_encode (p : Stock.Probe) : Stock.Probe.read? p.encode = some p := by
  have hrecord := Json.Record.ofJson?_fields
    [("mode", .int p.mode.toNat), ("num", .int p.number.toInt), ("text", .text p.label)]
    (show ["mode", "num", "text"].Nodup by decide)
  have hnumber : (Json.int p.number.toInt).int64? = some p.number := Json.int64?_intJson p.number
  simp only [List.map_cons, List.map_nil] at hrecord
  rw [encode, read?, hrecord]
  simp [Json.Record.withDefault, Json.Record.raw?, Json.Record.isExact, hnumber, Json.uint8?_int,
    Json.text?]

namespace Stock.Instance

theorem readField?_object {α : Type} {name : String} {default a : α} {read : Json → Option α}
    {j : Json} (h : read j = some a) :
    readField? name default read (.object [(name, j)]) = some a := by
  have hrecord := Json.Record.ofJson?_fields [(name, j)] (List.nodup_singleton name)
  simp only [List.map_cons, List.map_nil] at hrecord
  rw [readField?, hrecord]
  simp [Json.Record.withDefault, Json.Record.raw?, Json.Record.isExact, h]

/-! ### Data that can have been read -/

/-- Data that reading can make, but for a count: a sequence keeps to the limit on its exits. -/
def Fitting : Instance → Prop
  | sequence arity => arity ≤ maxArity
  | _ => True

theorem min_maxArity_le (n : UInt32) : min n maxArity ≤ maxArity := by
  show (if n ≤ maxArity then n else maxArity) ≤ maxArity
  split
  · assumption
  · exact UInt32.le_refl _

theorem fitting_blank (b : Behavior) : (blank b).Fitting := by
  cases b with
  | sequence => exact (by decide : (2 : UInt32) ≤ maxArity)
  | _ => trivial

theorem fitting_read? {b : Behavior} {j : Json} {i : Instance} (h : read? b j = some i) :
    i.Fitting := by
  cases i with
  | sequence arity =>
    obtain rfl : Behavior.sequence = b := behavior_of_read? h
    rw [read?, Option.map_eq_some_iff] at h
    obtain ⟨n, -, hn⟩ := h
    rw [sequence.injEq] at hn
    rw [← hn]
    exact min_maxArity_le n
  | _ => trivial

theorem Fitting.withCount {i : Instance} (h : i.Fitting) (n : Int64) : (i.withCount n).Fitting := by
  cases i with
  | sequence arity => exact h
  | _ => trivial

theorem withCount_read? {b : Behavior} {j : Json} {i : Instance} (h : read? b j = some i) :
    i.withCount 0 = i := by
  cases i with
  | counter c =>
    obtain rfl : Behavior.counter = b := behavior_of_read? h
    simp only [read?, Option.bind_eq_bind, Option.bind_eq_some_iff] at h
    obtain ⟨r, -, start, -, step, -, hc⟩ := h
    split at hc
    · rw [← Option.some.inj hc]
      rfl
    · cases hc
  | _ => rfl

/-- **What fits is read** from what is written of it, with its count at the start. -/
theorem read?_encode {i : Instance} (h : i.Fitting) :
    read? i.behavior i.encode = some (i.withCount 0) := by
  cases i with
  | constantInt value =>
    rw [encode, behavior, read?, readField?_object (Json.int64?_intJson value)]
    rfl
  | constantText value =>
    rw [encode, behavior, read?, readField?_object (Json.text?_text value)]
    rfl
  | sequence arity =>
    have hmin : min arity maxArity = arity := if_pos h
    rw [encode, behavior, read?, readField?_object (Json.uint32?_int arity), Option.map_some, hmin]
    rfl
  | counter c =>
    have hrecord := Json.Record.ofJson?_fields
      [("start", intJson c.start), ("step", intJson c.step)]
      (show ["start", "step"].Nodup by decide)
    simp only [List.map_cons, List.map_nil] at hrecord
    rw [encode, behavior, read?, hrecord]
    simp [Json.Record.withDefault, Json.Record.raw?, Json.Record.isExact, Json.int64?_intJson,
      withCount]
  | printText lead =>
    rw [encode, behavior, read?, readField?_object (Json.text?_text lead)]
    rfl
  | tracer tag =>
    rw [encode, behavior, read?, readField?_object (Json.text?_text tag)]
    rfl
  | shape mode =>
    have hrecord := Json.Record.ofJson?_fields [("mode", .int mode.toNat)]
      (List.nodup_singleton "mode")
    simp only [List.map_cons, List.map_nil] at hrecord
    rw [encode, behavior, read?, hrecord]
    simp [Json.Record.required, Json.Record.raw?, Json.Record.isExact, Json.uint8?_int, withCount]
  | probe p =>
    rw [encode, behavior, read?, p.read?_encode]
    rfl
  | addInt | greaterThan | intToText | startEvent | branch => rfl

end Stock.Instance

/-! ### There and back -/

namespace Instance

/-- Whatever is read, be it cut down or nothing at all, fits. -/
theorem fitting_decode (b : Behavior) (j : Json) : (decode b j).value.Fitting := by
  unfold decode
  split
  · exact Stock.Instance.fitting_blank b
  · split
    · next h => exact Stock.Instance.fitting_read? h
    · exact Stock.Instance.fitting_blank b

/-- A counter that was just read has not counted yet. -/
theorem withCount_decode (b : Behavior) (j : Json) :
    (decode b j).value.withCount 0 = (decode b j).value := by
  have hblank : (blank b).withCount 0 = blank b := by cases b <;> rfl
  unfold decode
  split
  · exact hblank
  · split
    · next h => exact Stock.Instance.withCount_read? h
    · exact hblank

/-- What can be read is taken for what it says. -/
theorem decode_of_read? {b : Behavior} {ms : List (String × Json)} {i : Instance}
    (h : read? b (.object ms) = some i) : (decode b (.object ms)).value = i := by
  simp only [decode, h]

/-- **What fits is read back**, with its count at the start. -/
theorem decode_encode {i : Instance} (h : i.Fitting) :
    (decode i.behavior i.encode).value = i.withCount 0 := by
  have hread : read? i.behavior i.encode = some (i.withCount 0) := Stock.Instance.read?_encode h
  cases i with
  | addInt | greaterThan | intToText | startEvent | branch => rfl
  | _ => exact decode_of_read? hread

/-- **Reading settles in one step.** Whatever an author wrote, to write down what was read of it and
to read that again gives the same data. -/
theorem decode_encode_decode (b : Behavior) (j : Json) :
    (decode b (decode b j).value.encode).value = (decode b j).value := by
  have hback := decode_encode (fitting_decode b j)
  rwa [behavior_decode, withCount_decode] at hback

end Instance

end FlowGraph
