import FlowGraph.Proofs.Pool.Release
import Mathlib.Logic.Function.Basic

/-!
# Pools as maps from ids to values

Pools stand side by side, and a value of one can be copied into another. Whatever is asked of them,
each behaves as a finite map: what binds, changes or unbinds an id leaves every other id alone, and
an id that is issued is above all that the pool has issued before, so none ever comes back. Nothing
is assumed of the ratios that set off compactions; one that is no number never does.

* `PoolRequest`, `PoolReply`, `Pool.perform`, `Pool.runAll` — what can be asked of pools.
* `PoolMap.Step`, `PoolMap.Run` — the same requests, put to maps.
* `Pool.Tracks` — the invariant that ties a pool to its map.
* `Pool.Tracks.perform`, `Pool.Tracks.runAll` — one request and all requests keep it.
* `Pool.run_as_maps` — the replies of pools are those of maps, and so is all that can be seen.
-/

namespace FlowGraph

/-! ### Requests -/

/-- What can be asked of one of several pools, which are told apart by `ι`. -/
inductive PoolRequest (ι α : Type)
  | allocate
  | allocateWith (data : α)
  /-- A copy of a value of another pool. -/
  | allocateCopy (source : ι) (id : SlotId)
  /-- A copy of a value of the pool itself. -/
  | duplicate (id : SlotId)
  | modify (id : SlotId) (f : α → α)
  | release (id : SlotId)
  | compact

/-- What is replied. -/
inductive PoolReply
  | issued (id : SlotId)
  /-- There was nothing to copy. -/
  | missing
  | flag (b : Bool)
  | done

/-- The id that a reply issues. -/
def PoolReply.id? : PoolReply → Option SlotId
  | .issued id => some id
  | _ => none

section

variable {ι α : Type} [DecidableEq ι]

namespace Pool

/-- The reply to an allocation that may have had nothing to copy. -/
def replyTo (p : Pool α) : Option (SlotId × Pool α) → PoolReply × Pool α
  | some (id, q) => (.issued id, q)
  | none => (.missing, p)

/-- The reply to a request put to a pool, and the pool afterwards. -/
def perform (ps : ι → Pool α) (i : ι) : PoolRequest ι α → PoolReply × Pool α
  | .allocate => (ps i).replyTo (some (ps i).allocate)
  | .allocateWith data => (ps i).replyTo (some ((ps i).allocateWith data))
  | .allocateCopy j id => (ps i).replyTo ((ps i).allocateCopy (ps j) id)
  | .duplicate id => (ps i).replyTo ((ps i).duplicate id)
  | .modify id f => (.flag ((ps i).contains id), (ps i).modify id f)
  | .release id => (.flag ((ps i).release id).value.1, ((ps i).release id).value.2)
  | .compact => (.done, (ps i).compact.value)

/-- The replies to a run of requests, each put to one of the pools, and the pools afterwards. -/
def runAll (ps : ι → Pool α) : List (ι × PoolRequest ι α) → List (ι × PoolReply) × (ι → Pool α)
  | [] => ([], ps)
  | (i, q) :: qs =>
    let r := perform ps i q
    let s := runAll (Function.update ps i r.2) qs
    ((i, r.1) :: s.1, s.2)

/-- The ids that a pool has issued in a run. -/
def issuedBy (i : ι) (replies : List (ι × PoolReply)) : List SlotId :=
  replies.filterMap fun x => if x.1 = i then x.2.id? else none

theorem length_runAll (ps : ι → Pool α) (qs : List (ι × PoolRequest ι α)) :
    (runAll ps qs).1.length = qs.length := by
  induction qs generalizing ps with
  | nil => rfl
  | cons x qs ih =>
      obtain ⟨i, q⟩ := x
      simp only [runAll, List.length_cons, ih]

/-- A run issues no more ids than it has requests. -/
theorem length_issuedBy_le (i : ι) (ps : ι → Pool α) (qs : List (ι × PoolRequest ι α)) :
    (issuedBy i (runAll ps qs).1).length ≤ qs.length := by
  have hle := List.length_filterMap_le
    (fun x : ι × PoolReply => if x.1 = i then x.2.id? else none) (runAll ps qs).1
  rw [length_runAll] at hle
  exact hle

end Pool

end

/-! ### Maps -/

/-- A map from ids to values, and the ids that were ever issued for it, the last one first. -/
structure PoolMap (α : Type) where
  bound : Table SlotId α
  issued : List SlotId

namespace PoolMap

variable {ι α : Type}

/-- The map that binds nothing. -/
def empty : PoolMap α := ⟨.empty, []⟩

/-- An id above all that were ever issued. -/
def Fresh (m : PoolMap α) (id : SlotId) : Prop :=
  id.isValid = true ∧ ∀ x ∈ m.issued, x.raw < id.raw

/-- Issue an id and bind it. -/
def issue (m : PoolMap α) (id : SlotId) (data : α) : PoolMap α :=
  ⟨m.bound.insert id data, id :: m.issued⟩

/-- What a request put to one of several maps is replied, and what becomes of that map. -/
inductive Step (blank : α) (ms : ι → PoolMap α) (i : ι) :
    PoolRequest ι α → PoolReply → PoolMap α → Prop
  | allocate {id : SlotId} (fresh : (ms i).Fresh id) :
      Step blank ms i .allocate (.issued id) ((ms i).issue id blank)
  | allocateWith {id : SlotId} (data : α) (fresh : (ms i).Fresh id) :
      Step blank ms i (.allocateWith data) (.issued id) ((ms i).issue id data)
  | copy {j : ι} {x id : SlotId} {data : α} (found : (ms j).bound.find? x = some data)
      (fresh : (ms i).Fresh id) :
      Step blank ms i (.allocateCopy j x) (.issued id) ((ms i).issue id data)
  | copyMissing {j : ι} {x : SlotId} (absent : (ms j).bound.find? x = none) :
      Step blank ms i (.allocateCopy j x) .missing (ms i)
  | duplicate {x id : SlotId} {data : α} (found : (ms i).bound.find? x = some data)
      (fresh : (ms i).Fresh id) :
      Step blank ms i (.duplicate x) (.issued id) ((ms i).issue id data)
  | duplicateMissing {x : SlotId} (absent : (ms i).bound.find? x = none) :
      Step blank ms i (.duplicate x) .missing (ms i)
  | modify (x : SlotId) (f : α → α) :
      Step blank ms i (.modify x f) (.flag ((ms i).bound.contains x))
        { ms i with bound := (ms i).bound.adjust x f }
  | release (x : SlotId) :
      Step blank ms i (.release x) (.flag ((ms i).bound.contains x))
        { ms i with bound := (ms i).bound.erase x }
  | compact : Step blank ms i .compact .done (ms i)

/-- A run of requests put to maps, with the replies and the maps afterwards. -/
inductive Run [DecidableEq ι] (blank : α) :
    (ι → PoolMap α) → List (ι × PoolRequest ι α) → List (ι × PoolReply) → (ι → PoolMap α) → Prop
  | nil (ms : ι → PoolMap α) : Run blank ms [] [] ms
  | cons {ms ms' : ι → PoolMap α} {i : ι} {q : PoolRequest ι α} {a : PoolReply} {m : PoolMap α}
      {qs : List (ι × PoolRequest ι α)} {as : List (ι × PoolReply)}
      (step : Step blank ms i q a m) (rest : Run blank (Function.update ms i m) qs as ms') :
      Run blank ms ((i, q) :: qs) ((i, a) :: as) ms'

end PoolMap

namespace Pool

variable {ι α : Type}

/-- All that can be seen of a pool is what a map says. -/
structure Shows (p : Pool α) (blank : α) (m : Table SlotId α) : Prop where
  find? : ∀ id, p.find? id = m.find? id
  get : ∀ id, p.get id = (m.find? id).getD blank
  contains : ∀ id, p.contains id = m.contains id
  size : p.size = m.size
  /-- Each binding is listed once. -/
  live : p.live.Perm m.bindings
  ids : p.ids.Perm m.keys

/-! ### The invariant -/

/-- What ties a pool to its map. Ids are issued in turn, so the last one tells how many there are;
once all have been used, nothing is said of the counter any more. -/
structure Tracks (p : Pool α) (blank : α) (m : PoolMap α) : Prop where
  wellFormed : p.WellFormed
  blank : p.blank = blank
  finds : ∀ id, p.find? id = m.bound.find? id
  issued : ∀ id, m.bound.find? id ≠ none → id ∈ m.issued
  counted : ∀ x ∈ m.issued, x.raw.toNat ≤ m.issued.length
  next : m.issued.length + 1 < 2 ^ 32 → p.nextId.toNat = m.issued.length + 1

theorem tracks_empty (ratio : Float32) (blank : α) : (empty ratio blank).Tracks blank .empty where
  wellFormed := wellFormed_empty ratio blank
  blank := rfl
  finds _ := rfl
  issued _ h := absurd rfl h
  counted _ h := by cases h
  next _ := rfl

namespace Tracks

variable {p : Pool α} {blank : α} {m : PoolMap α}

/-- While there are numbers left, ids are live below the counter only. -/
theorem ascending (h : p.Tracks blank m) (hroom : m.issued.length + 1 < 2 ^ 32) : p.Ascending := by
  have hnext := h.next hroom
  refine h.wellFormed.ascending_iff.2 ⟨?_, fun id hid => ?_⟩
  · rw [UInt32.lt_iff_toNat_lt, hnext]
    exact Nat.succ_pos _
  · rw [h.finds] at hid
    have hle := h.counted id (h.issued id hid)
    rw [UInt32.lt_iff_toNat_lt, hnext]
    omega

/-- **Allocation** issues a fresh id and binds it to what it was given. -/
theorem allocateWith (h : p.Tracks blank m) (hroom : m.issued.length + 1 < 2 ^ 32) (data : α) :
    ∃ id, (p.allocateWith data).1 = id ∧ m.Fresh id ∧
      (p.allocateWith data).2.Tracks blank (m.issue id data) := by
  have hasc := h.ascending hroom
  have hnext := h.next hroom
  have hid : p.freshId = ⟨p.nextId⟩ := hasc.freshId
  have hfind := h.wellFormed.find?_allocateWith data
  rw [hid] at hfind
  refine ⟨⟨p.nextId⟩, by rw [allocateWith_eq, hid], ⟨?_, fun x hx => ?_⟩, ?_⟩
  · exact (isValid_iff _).2 hasc.positive
  · have hle := h.counted x hx
    rw [UInt32.lt_iff_toNat_lt, hnext]
    omega
  · refine
      { wellFormed := h.wellFormed.allocateWith hasc data
        blank := by rw [allocateWith_eq]; exact h.blank
        finds := fun x => ?_, issued := fun x hx => ?_, counted := fun x hx => ?_
        next := fun hroom' => ?_ }
    · rw [hfind, PoolMap.issue, Table.find?_insert, h.finds]
    · rw [PoolMap.issue, Table.find?_insert] at hx
      by_cases hxid : x = ⟨p.nextId⟩
      · rw [hxid]
        exact List.mem_cons_self
      · rw [if_neg hxid] at hx
        exact List.mem_cons_of_mem _ (h.issued x hx)
    · rw [PoolMap.issue, List.length_cons]
      rcases List.mem_cons.1 hx with rfl | hx
      · exact Nat.le_of_eq hnext
      · exact Nat.le_succ_of_le (h.counted x hx)
    · rw [PoolMap.issue, List.length_cons] at hroom' ⊢
      rw [(hasc.allocateWith data (by omega)).2, hnext]

theorem modify (h : p.Tracks blank m) (id : SlotId) (f : α → α) :
    (p.modify id f).Tracks blank { m with bound := m.bound.adjust id f } where
  wellFormed := h.wellFormed.modify id f
  blank := by
    unfold Pool.modify
    split <;> exact h.blank
  finds x := by rw [h.wellFormed.find?_modify, Table.find?_adjust, h.finds]
  issued x hx := by
    refine h.issued x fun hnone => hx ?_
    rw [Table.find?_adjust, hnone]
    split <;> rfl
  counted := h.counted
  next := by
    unfold Pool.modify
    split <;> exact h.next

theorem release (h : p.Tracks blank m) (id : SlotId) :
    (p.release id).value.2.Tracks blank { m with bound := m.bound.erase id } where
  wellFormed := h.wellFormed.release id
  blank := (h.wellFormed.release_rest id).2.trans h.blank
  finds x := by rw [h.wellFormed.find?_release, Table.find?_erase, h.finds]
  issued x hx := by
    refine h.issued x fun hnone => hx ?_
    rw [Table.find?_erase, hnone]
    split <;> rfl
  counted := h.counted
  next hroom := by rw [(h.wellFormed.release_rest id).1, h.next hroom]

theorem compact (h : p.Tracks blank m) : p.compact.value.Tracks blank m := by
  rw [h.wellFormed.compact_value.1]
  exact
    { wellFormed := h.wellFormed.compacted
      blank := h.blank
      finds := fun x => (h.wellFormed.find?_compacted x).trans (h.finds x)
      issued := h.issued
      counted := h.counted
      next := h.next }

theorem contains_eq (h : p.Tracks blank m) (id : SlotId) : p.contains id = m.bound.contains id := by
  rw [h.wellFormed.contains_eq, h.finds, Table.contains]

/-- The list of a pool and that of its map are one, up to order. -/
theorem shows (h : p.Tracks blank m) : p.Shows blank m.bound := by
  have hlive : p.live.Perm m.bound.bindings := by
    have hbindings : m.bound.bindings.Nodup :=
      List.Pairwise.of_map Prod.fst (fun _ _ hne heq => hne (congrArg Prod.fst heq))
        m.bound.keysNodup
    refine (List.perm_ext_iff_of_nodup h.wellFormed.nodup_live hbindings).2 fun x => ?_
    obtain ⟨id, d⟩ := x
    rw [h.wellFormed.mem_live_iff, h.finds, Table.mem_bindings_iff]
  refine
    { find? := h.finds
      get := fun id => by rw [get, h.finds, h.blank]
      contains := h.contains_eq
      size := by rw [← h.wellFormed.length_live, hlive.length_eq, Table.size]
      live := hlive
      ids := ?_ }
  rw [ids_eq]
  exact hlive.map Prod.fst

end Tracks

/-! ### Steps -/

/-- A reply and the pool afterwards are what a step of the pool's map comes to. -/
def Follows (blank : α) (ms : ι → PoolMap α) (i : ι) (q : PoolRequest ι α)
    (x : PoolReply × Pool α) : Prop :=
  ∃ m, PoolMap.Step blank ms i q x.1 m ∧ x.2.Tracks blank m ∧
    m.issued = x.1.id?.toList ++ (ms i).issued

section

variable {p : Pool α} {blank : α} {ms : ι → PoolMap α} {i : ι} {q : PoolRequest ι α}

theorem Tracks.follows_issue (h : p.Tracks blank (ms i))
    (hroom : (ms i).issued.length + 1 < 2 ^ 32) (data : α)
    (step : ∀ id, (ms i).Fresh id → PoolMap.Step blank ms i q (.issued id) ((ms i).issue id data)) :
    Follows blank ms i q (p.replyTo (some (p.allocateWith data))) := by
  obtain ⟨id, hid, hfresh, htracks⟩ := h.allocateWith hroom data
  refine ⟨(ms i).issue id data, ?_, htracks, ?_⟩
  · simp only [replyTo, hid]
    exact step id hfresh
  · simp only [replyTo, hid]
    rfl

theorem Tracks.follows_copy (h : p.Tracks blank (ms i)) (source : Option α)
    (hroom : (ms i).issued.length + (p.replyTo (source.map p.allocateWith)).1.id?.toList.length
      < 2 ^ 32)
    (found : ∀ data id, source = some data → (ms i).Fresh id →
      PoolMap.Step blank ms i q (.issued id) ((ms i).issue id data))
    (missing : source = none → PoolMap.Step blank ms i q .missing (ms i)) :
    Follows blank ms i q (p.replyTo (source.map p.allocateWith)) := by
  cases source with
  | none => exact ⟨ms i, missing rfl, h, rfl⟩
  | some data => exact h.follows_issue hroom data fun id => found data id rfl

end

/-- **One step.** What a pool replies is what its map does, and the two stay tied. -/
theorem Tracks.perform {blank : α} {ps : ι → Pool α} {ms : ι → PoolMap α}
    (h : ∀ i, (ps i).Tracks blank (ms i)) (i : ι) (q : PoolRequest ι α)
    (hroom : (ms i).issued.length + (Pool.perform ps i q).1.id?.toList.length < 2 ^ 32) :
    Follows blank ms i q (Pool.perform ps i q) := by
  cases q with
  | allocate =>
      refine (h i).follows_issue hroom (ps i).blank fun id hfresh => ?_
      rw [(h i).blank]
      exact .allocate hfresh
  | allocateWith data => exact (h i).follows_issue hroom data fun _ => .allocateWith data
  | allocateCopy j x =>
      simp only [Pool.perform, Pool.allocateCopy, (h j).finds] at hroom ⊢
      exact (h i).follows_copy _ hroom (fun _ _ => .copy) .copyMissing
  | duplicate x =>
      simp only [Pool.perform, Pool.duplicate, Pool.allocateCopy, (h i).finds] at hroom ⊢
      exact (h i).follows_copy _ hroom (fun _ _ => .duplicate) .duplicateMissing
  | modify x f =>
      refine ⟨_, ?_, (h i).modify x f, rfl⟩
      simp only [Pool.perform]
      rw [(h i).contains_eq]
      exact .modify x f
  | release x =>
      refine ⟨_, ?_, (h i).release x, rfl⟩
      simp only [Pool.perform]
      rw [(h i).wellFormed.release_fst, (h i).contains_eq]
      exact .release x
  | compact => exact ⟨_, .compact, (h i).compact, rfl⟩

/-! ### Runs -/

variable [DecidableEq ι]

theorem issuedBy_cons (j i : ι) (a : PoolReply) (as : List (ι × PoolReply)) :
    (issuedBy j ((i, a) :: as)).length
      = (if i = j then a.id?.toList.length else 0) + (issuedBy j as).length := by
  unfold issuedBy
  by_cases hij : i = j
  · cases hid : a.id? with
    | none => simp [hij, hid]
    | some id =>
        simp only [List.filterMap_cons, hij, if_true, hid, List.length_cons, Option.toList_some,
          List.length_nil]
        omega
  · simp [hij]

/-- **All steps**, by induction on the requests. -/
theorem Tracks.runAll {blank : α} {ps : ι → Pool α} {ms : ι → PoolMap α}
    (h : ∀ i, (ps i).Tracks blank (ms i)) (qs : List (ι × PoolRequest ι α))
    (hroom : ∀ i, (ms i).issued.length + (issuedBy i (runAll ps qs).1).length < 2 ^ 32) :
    ∃ ms', PoolMap.Run blank ms qs (runAll ps qs).1 ms' ∧
      ∀ i, ((runAll ps qs).2 i).Tracks blank (ms' i) := by
  induction qs generalizing ps ms with
  | nil => exact ⟨ms, .nil ms, h⟩
  | cons x qs ih =>
      obtain ⟨i, q⟩ := x
      simp only [Pool.runAll] at hroom ⊢
      have hone : (ms i).issued.length + (Pool.perform ps i q).1.id?.toList.length < 2 ^ 32 := by
        have hi := hroom i
        rw [issuedBy_cons, if_pos rfl] at hi
        omega
      obtain ⟨m, hstep, htracks, hissued⟩ := Tracks.perform h i q hone
      have hall : ∀ j, (Function.update ps i (Pool.perform ps i q).2 j).Tracks blank
          (Function.update ms i m j) := by
        intro j
        by_cases hj : j = i
        · rw [hj, Function.update_self, Function.update_self]
          exact htracks
        · rw [Function.update_of_ne hj, Function.update_of_ne hj]
          exact h j
      have hrest : ∀ j, (Function.update ms i m j).issued.length
          + (issuedBy j (Pool.runAll (Function.update ps i (Pool.perform ps i q).2) qs).1).length
          < 2 ^ 32 := by
        intro j
        have hj := hroom j
        rw [issuedBy_cons] at hj
        by_cases hji : j = i
        · rw [hji, if_pos rfl] at hj
          rw [hji, Function.update_self, hissued, List.length_append]
          omega
        · rw [if_neg (Ne.symm hji)] at hj
          rw [Function.update_of_ne hji]
          omega
      obtain ⟨ms', hrun, hend⟩ := ih hall hrest
      exact ⟨ms', .cons hstep hrun, hend⟩

/-- **Pools are maps with fresh ids.** Whatever is asked of pools that start out empty, their
replies are those of maps, and after every run what can be seen of a pool is what its map says, as
long as no pool has issued more ids than there are. -/
theorem run_as_maps (ratio : ι → Float32) (blank : α) (qs : List (ι × PoolRequest ι α))
    (few : ∀ i, (issuedBy i (runAll (fun i => .empty (ratio i) blank) qs).1).length < 2 ^ 32) :
    ∃ ms, PoolMap.Run blank (fun _ => .empty) qs
        (runAll (fun i => .empty (ratio i) blank) qs).1 ms ∧
      ∀ i, ((runAll (fun i => .empty (ratio i) blank) qs).2 i).Shows blank (ms i).bound := by
  obtain ⟨ms, hrun, htracks⟩ := Tracks.runAll (fun i => tracks_empty (ratio i) blank) qs
    (fun i => by rw [PoolMap.empty, List.length_nil, Nat.zero_add]; exact few i)
  exact ⟨ms, hrun, fun i => (htracks i).shows⟩

/-- A run on two pools: values come, are copied across, change and go, and a vacated place is used
again under another id. -/
def churn : List (Bool × PoolRequest Bool Nat) :=
  [(true, .allocateWith 7), (true, .allocate), (false, .allocateCopy true ⟨1⟩),
    (true, .release ⟨1⟩), (true, .duplicate ⟨2⟩), (true, .modify ⟨3⟩ (· + 1)),
    (false, .allocateCopy true ⟨1⟩), (false, .release ⟨1⟩), (true, .compact), (true, .release ⟨9⟩)]

/-- The ratios of two pools: one is no number, and the other is infinite. -/
def oddRatio : Bool → Float32
  | true => 0 / 0
  | false => 1 / 0

theorem run_as_maps_churn :
    (∀ i, (issuedBy i (runAll (fun i => .empty (oddRatio i) 0) churn).1).length < 2 ^ 32) ∧
    ∃ ms, PoolMap.Run 0 (fun _ => .empty) churn
        (runAll (fun i => .empty (oddRatio i) 0) churn).1 ms ∧
      ∀ i, ((runAll (fun i => .empty (oddRatio i) 0) churn).2 i).Shows 0 (ms i).bound := by
  have hlength : churn.length < 2 ^ 32 := by decide
  have few : ∀ i, (issuedBy i (runAll (fun i => .empty (oddRatio i) 0) churn).1).length < 2 ^ 32 :=
    fun i => Nat.lt_of_le_of_lt (length_issuedBy_le i _ churn) hlength
  exact ⟨few, run_as_maps oddRatio 0 churn few⟩

end Pool

end FlowGraph
