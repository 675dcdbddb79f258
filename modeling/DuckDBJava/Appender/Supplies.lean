/-
  What the calls of a row supply, and the slots that carry it.

  A call supplies a column with a value or opens a `STRUCT` or `UNION`; `assemble` reads the value
  of a column off such supplies.  `Carries`: slot `k` of a column decodes to what has been supplied
  of it.  `CarriesBefore`: it decodes so for what comes before a column inside a `STRUCT` or
  `UNION`.  Supplying a column leads from there to the next column (`carries_next`).
-/
import DuckDBJava.Appender.PlainColumns

namespace DuckDBJava

open Exec PathTree

/-- One call of a row. -/
inductive Supply where
  | value (x : Value)
  | beginStruct
  /-- `member` is the number of the selected child -/
  | beginUnion (member : ℕ)

mutual

/-- The value of a column from its supplies, and the supplies behind it. -/
def assemble : LogicalType → List Supply → Option (Value × List Supply)
  | .node _ _, [] => none
  | .node _ _, .value x :: rest => some (x, rest)
  | .node kind cs, .beginStruct :: rest =>
    match kind with
    | .struct _ => (assembleFields cs rest).map fun (xs, rest) => (.struct xs, rest)
    | _ => none
  | .node kind cs, .beginUnion member :: rest =>
    match kind with
    | .union _ =>
      (assembleMember cs member rest).map fun (x, rest) => (.union (member - 1) x, rest)
    | _ => none

/-- The values of fields, one after the other. -/
def assembleFields : List LogicalType → List Supply → Option (List Value × List Supply)
  | [], log => some ([], log)
  | t :: ts, log => do
    let (x, rest) ← assemble t log
    let (xs, rest) ← assembleFields ts rest
    return (x :: xs, rest)

/-- The value of the child with that number. -/
def assembleMember : List LogicalType → ℕ → List Supply → Option (Value × List Supply)
  | [], _, _ => none
  | t :: _, 0, log => assemble t log
  | _ :: ts, member + 1, log => assembleMember ts member log

end

/-! ## Children -/

theorem assembleMember_of {ts : List LogicalType} {m : ℕ} {u : LogicalType} (h : ts[m]? = some u)
    (log : List Supply) : assembleMember ts m log = assemble u log := by
  induction ts generalizing m with
  | nil => cases h
  | cons t ts ih =>
    cases m with
    | zero =>
      cases h
      rfl
    | succ m => exact ih h

theorem decodeChild_of {ts : List LogicalType} {m : ℕ} {u : LogicalType} (h : ts[m]? = some u)
    (v : Vec) (k : ℕ) : decodeChild ts m v k = decode u v k := by
  induction ts generalizing m with
  | nil => cases h
  | cons t ts ih =>
    cases m with
    | zero =>
      cases h
      rfl
    | succ m => exact ih h

theorem decodeChild_eq_some {ts : List LogicalType} {i k : ℕ} {v : Vec} {x : Value}
    (h : decodeChild ts i v k = some x) : ∃ t, ts[i]? = some t ∧ decode t v k = some x := by
  induction ts generalizing i with
  | nil => cases h
  | cons t ts ih =>
    cases i with
    | zero => exact ⟨t, rfl, h⟩
    | succ i => exact ih h

theorem assembleFields_append {ts us : List LogicalType} {log log' : List Supply} {xs : List Value}
    (h : assembleFields ts log = some (xs, log')) :
    assembleFields (ts ++ us) log =
      (assembleFields us log').map fun (ys, rest) => (xs ++ ys, rest) := by
  induction ts generalizing log xs with
  | nil =>
    cases h
    simp
  | cons t ts ih =>
    simp only [assembleFields, Option.bind_eq_bind, Option.bind_eq_some_iff, Prod.exists] at h
    obtain ⟨x, rest, ht, xs', rest', hts, h⟩ := h
    cases h
    simp only [List.cons_append, assembleFields, ht, Option.bind_eq_bind, Option.bind_some, ih hts]
    cases assembleFields us log' <;> rfl

theorem decodeFields_append {ts us : List LogicalType} {i k : ℕ} {v : Vec} {xs : List Value}
    (h : decodeFields ts i v k = some xs) :
    decodeFields (ts ++ us) i v k =
      (decodeFields us (i + ts.length) v k).map fun ys => xs ++ ys := by
  induction ts generalizing i xs with
  | nil =>
    cases h
    simp
  | cons t ts ih =>
    simp only [decodeFields, Option.bind_eq_bind, Option.bind_eq_some_iff] at h
    obtain ⟨x, ht, xs', hts, h⟩ := h
    cases h
    simp only [List.cons_append, decodeFields, ht, Option.bind_eq_bind, Option.bind_some, ih hts,
      List.length_cons]
    rw [show i + 1 + ts.length = i + (ts.length + 1) by omega]
    cases decodeFields us (i + (ts.length + 1)) v k <;> rfl

/-- The decoded fields, one by one. -/
theorem decodeFields_eq_some {ts : List LogicalType} {i k : ℕ} {v : Vec} {xs : List Value}
    (h : decodeFields ts i v k = some xs) : xs.length = ts.length ∧
      ∀ j t, ts[j]? = some t → xs[j]? = decode t (v.child (i + j)) k := by
  induction ts generalizing i xs with
  | nil =>
    cases h
    exact ⟨rfl, fun j t ht => by cases ht⟩
  | cons u ts ih =>
    simp only [decodeFields, Option.bind_eq_bind, Option.bind_eq_some_iff] at h
    obtain ⟨x, hx, xs', hxs, h⟩ := h
    cases h
    obtain ⟨hlen, hget⟩ := ih hxs
    refine ⟨congrArg (· + 1) hlen, fun j t ht => ?_⟩
    cases j with
    | zero =>
      cases ht
      exact hx.symm
    | succ j =>
      rw [List.getElem?_cons_succ, hget j t ht, Nat.add_right_comm, Nat.add_assoc]

/-! ## Slots that carry what has been supplied -/

/-- Slot `k` decodes to the value that `log` supplies. -/
def Carries (t : LogicalType) (v : Vec) (k : ℕ) (log : List Supply) : Prop :=
  ∃ x, decode t v k = some x ∧ ∀ rest, assemble t (log ++ rest) = some (x, rest)

/-- The first `i` of the columns `ts` carry `log`. -/
inductive CarriesFields (ts : List LogicalType) (v : Vec) (k : ℕ) : ℕ → List Supply → Prop
  | zero : CarriesFields ts v k 0 []
  | succ {i u log log'} : CarriesFields ts v k i log → ts[i]? = some u →
      Carries u (v.child i) k log' → CarriesFields ts v k (i + 1) (log ++ log')

/-- The `STRUCT` or `UNION` in `v` is open at its child `i`. -/
inductive OpenAt (v : Vec) (k : ℕ) : LogicalType → ℕ → List Supply → Prop
  | struct {names cs i log} : CarriesFields cs v k i log →
      (∀ m, i < m → m < cs.length → FreshAt k (v.child m)) →
      OpenAt v k (.node (.struct names) cs) i (.beginStruct :: log)
  | union {names cs m} : 0 < m → decodeChild cs 0 (v.child 0) k = some (.fixed (m - 1)) →
      OpenAt v k (.node (.union names) cs) m [.beginUnion m]

/-- Slot `k` carries what `log` supplies of the top-level column before `col`. -/
def CarriesBefore (chunk : Vec) (k : ℕ) : Column → List Supply → Prop
  | .top _ _, log => log = []
  | .child p i _, log => (chunk.sub p.path).root.valid k = true ∧
      ∃ l l', log = l ++ l' ∧ CarriesBefore chunk k p l ∧ OpenAt (chunk.sub p.path) k p.type i l'

section
variable {k : ℕ} {v v' : Vec}

theorem Carries.value {t : LogicalType} {x : Value} (h : decode t v k = some x) :
    Carries t v k [.value x] := by
  refine ⟨x, h, fun rest => ?_⟩
  cases t with
  | node kind cs => rfl

theorem Carries.sameAt {t : LogicalType} {log : List Supply} (ht : t.Plain) (hs : SameAt k v v')
    (h : Carries t v k log) : Carries t v' k log := by
  obtain ⟨x, hx, ha⟩ := h
  exact ⟨x, (decode_sameAt ht hs).trans hx, ha⟩

theorem CarriesFields.le {ts : List LogicalType} {i : ℕ} {log : List Supply}
    (h : CarriesFields ts v k i log) : i ≤ ts.length := by
  cases h with
  | zero => exact Nat.zero_le _
  | succ _ hu _ => exact (List.getElem?_eq_some_iff.1 hu).1

/-- The fields are decoded and assembled alike. -/
theorem CarriesFields.take {ts : List LogicalType} {i : ℕ} {log : List Supply}
    (h : CarriesFields ts v k i log) : ∃ xs, decodeFields (ts.take i) 0 v k = some xs ∧
      ∀ rest, assembleFields (ts.take i) (log ++ rest) = some (xs, rest) := by
  induction h with
  | zero => exact ⟨[], rfl, fun _ => rfl⟩
  | @succ i u log log' hf hu hc ih =>
    obtain ⟨xs, hxs, hassemble⟩ := ih
    obtain ⟨x, hx, hassemble'⟩ := hc
    have hlen : i < ts.length := (List.getElem?_eq_some_iff.1 hu).1
    have htake : ts.take (i + 1) = ts.take i ++ [u] := by
      rw [List.take_add_one, hu]
      rfl
    refine ⟨xs ++ [x], ?_, fun rest => ?_⟩
    · rw [htake, decodeFields_append hxs, List.length_take, Nat.min_eq_left hlen.le, Nat.zero_add]
      simp [decodeFields, hx]
    · rw [htake, List.append_assoc, assembleFields_append (hassemble _)]
      simp [assembleFields, hassemble']

/-- All fields of a `STRUCT` have been supplied. -/
theorem Carries.struct {names : List String} {cs : List LogicalType} {log : List Supply}
    (hvalid : v.root.valid k = true) (h : CarriesFields cs v k cs.length log) :
    Carries (.node (.struct names) cs) v k (.beginStruct :: log) := by
  obtain ⟨xs, hxs, hassemble⟩ := h.take
  rw [List.take_length] at hxs hassemble
  refine ⟨.struct xs, ?_, fun rest => ?_⟩
  · simp [decode, hvalid, hxs]
  · simp [assemble, hassemble]

/-- The selected member of a `UNION` has been supplied. -/
theorem Carries.union {names : List String} {cs : List LogicalType} {m : ℕ} {u : LogicalType}
    {log : List Supply} (hvalid : v.root.valid k = true) (hm : 0 < m)
    (htag : decodeChild cs 0 (v.child 0) k = some (.fixed (m - 1))) (hu : cs[m]? = some u)
    (h : Carries u (v.child m) k log) :
    Carries (.node (.union names) cs) v k (.beginUnion m :: log) := by
  obtain ⟨x, hx, hassemble⟩ := h
  have hm : m - 1 + 1 = m := by omega
  refine ⟨.union (m - 1) x, ?_, fun rest => ?_⟩
  · simp [decode, hvalid, htag, hm, decodeChild_of hu, hx]
  · simp [assemble, assembleMember_of hu, hassemble]

/-! ## Moving on -/

/-- A write to a field behind. -/
theorem CarriesFields.setChild {ts : List LogicalType} {i j : ℕ} {log : List Supply}
    (h : CarriesFields ts v k i log) (hij : i ≤ j) (c : Vec) :
    CarriesFields ts (v.setChild j c) k i log := by
  induction h with
  | zero => exact .zero
  | succ _ hu hc ih =>
    refine .succ (ih (by omega)) hu ?_
    rwa [child_setChild_ne (by omega)]

/-- A write below a column keeps what is carried before it. -/
theorem CarriesBefore.setSub {chunk : Vec} : ∀ {col : Column} {log : List Supply} {c : Vec},
    CarriesBefore chunk k col log → CarriesBefore (chunk.setSub col.path c) k col log
  | .top _ _, _, _, h => h
  | .child p i t, log, c, h => by
    obtain ⟨hvalid, l, l', rfl, hbefore, hopen⟩ := h
    have hsub : (chunk.setSub (Column.child p i t).path c).sub p.path =
        (chunk.sub p.path).setChild i c := sub_setSub_self p.path _ chunk
    refine ⟨by rw [hsub]; exact hvalid, l, l', rfl, hbefore.setSub, ?_⟩
    rw [hsub]
    generalize chunk.sub p.path = v at hopen
    generalize p.type = u at hopen
    cases hopen with
    | struct hf hfresh =>
      refine .struct ?_ fun m him hm => ?_
      · exact hf.setChild le_rfl c
      · rw [child_setChild_ne (by omega)]
        exact hfresh m him hm
    | union hm htag =>
      refine .union hm ?_
      rwa [child_setChild_ne (by omega)]

/-- **A supplied column leads to the next one**, in the same `STRUCT`, or the top-level column has
    been supplied. -/
theorem carries_next {columns : List LogicalType} {chunk : Vec} : ∀ {col : Column}
    {log log' : List Supply}, col.In columns → CarriesBefore chunk k col log →
    Carries col.type (chunk.sub col.path) k log' →
    (∃ d, nextColumn columns col = some d ∧ d.topLevel = col.topLevel ∧
      CarriesBefore chunk k d (log ++ log') ∧ FreshAt k (chunk.sub d.path)) ∨
    (nextColumn columns col = nextColumn columns col.topLevel ∧
      Carries col.topLevel.type (chunk.sub col.topLevel.path) k (log ++ log'))
  | .top i t, log, log', _, hb, hc => by
    obtain rfl : log = [] := hb
    exact .inr ⟨rfl, hc⟩
  | .child p i t, log, log', hin, hb, hc => by
    obtain ⟨hvalid, l, l', rfl, hbefore, hopen⟩ := hb
    have hchild : p.type.children[i]? = some t := hin.2
    have hsub : Carries t ((chunk.sub p.path).child i) k log' := hc
    have hp : p.type = p.type := rfl
    generalize hu : p.type = u at hopen hp
    cases hopen with
    | @struct names cs i lf hf hfresh =>
      have hcolType : p.colType = .struct := by
        rw [Column.colType, hu]
        rfl
      rw [hu] at hchild
      have hf' := hf.succ hchild hsub
      cases hg : p.get? (i + 1) with
      | some d =>
        obtain ⟨w, hw, rfl⟩ := Column.get?_eq hg
        have hlen : i + 1 < cs.length := by
          rw [hu] at hw
          exact (List.getElem?_eq_some_iff.1 hw).1
        refine .inl ⟨_, nextColumn_field hcolType hg, rfl, ⟨hvalid, l, .beginStruct :: (lf ++ log'),
          by simp, hbefore, ?_⟩, hfresh (i + 1) (Nat.lt_succ_self i) hlen⟩
        rw [hu]
        exact .struct hf' fun m hm => hfresh m (by omega)
      | none =>
        have hlast : i + 1 = p.childCount := by
          have hle := Column.get?_eq_none.1 hg
          have hlt := hf'.le
          have hcount : p.childCount = cs.length := by rw [Column.childCount, hu]; rfl
          omega
        have hlen : i + 1 = cs.length := by rw [hlast, Column.childCount, hu]; rfl
        rw [nextColumn_last hlast]
        rw [hlen] at hf'
        have hcp : Carries p.type (chunk.sub p.path) k (.beginStruct :: (lf ++ log')) := by
          rw [hu]
          exact .struct hvalid hf'
        rw [List.append_assoc]
        exact carries_next hin.1 hbefore hcp
    | @union names cs _ hm htag =>
      have hcolType : p.colType = .union := by
        rw [Column.colType, hu]
        rfl
      rw [hu] at hchild
      rw [nextColumn_member hcolType]
      have hcp : Carries p.type (chunk.sub p.path) k (.beginUnion i :: log') := by
        rw [hu]
        exact .union hvalid hm htag hchild hsub
      rw [List.append_assoc]
      exact carries_next hin.1 hbefore hcp

end

end DuckDBJava
