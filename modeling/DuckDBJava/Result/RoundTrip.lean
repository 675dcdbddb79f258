/-
  From the appender to the result set.

  A row that an appender has delivered is fetched again: `getObject` shows what the calls of the row
  have supplied (**`delivered_shown`**), and for an appended scalar it returns what the caller was
  promised (**`appended_readBack`**).  Of the engine it is assumed that the fetched column holds the
  value of the row in that column.
-/
import DuckDBJava.Result.ReadBack
import DuckDBJava.Appender.Delivered

namespace DuckDBJava

open Exec PathTree

variable {env : Platform} {cfg : Config} {s₀ : Appender} {default : ℕ → Value}
  {calls : List (Call × Natives)} {i : ℕ} {t : LogicalType}

/-- Slot `p` of a fetched column holds the value of a row in column `i`. -/
structure FetchedAs (env : Platform) (r : Row) (i : ℕ) (t : LogicalType) (n : ℕ)
    (v : FlatVector) (column : DuckDBVector) (p : ℕ) : Prop where
  type : v.root.type = t
  fetched : ∃ w, fetchColumn env n v = .ok column w
  row : p < n
  slot : decode t (slotsOf v) p = r.value i

/-- `getObject` returns the object of the slot. -/
theorem FetchedAs.getObject {r : Row} {n p : ℕ} {v : FlatVector} {column : DuckDBVector}
    (h : FetchedAs env r i t n v column p) (ht : t.Wf) :
    column.getObject env p = slotObject env t [] n v p := by
  obtain ⟨htype, ⟨w, hfetch⟩, hp, -⟩ := h
  subst htype
  exact fetchColumn_getObject ht hfetch hp

/-- The column `[{a: 1}]` of type `STRUCT(a INTEGER)`. -/
def structVector : FlatVector
  | [] => ⟨.node (.struct ["a"]) [.integer], fun _ => true, fun _ => .fixed 0, 0⟩
  | _ => ⟨.integer, fun _ => true, fun _ => .fixed 1, 0⟩

theorem TypeKind.sharesSlots_of_isLeaf {kind : TypeKind} (hl : kind.isLeaf = true) :
    kind.sharesSlots = true := by
  cases kind with
  | scalar | decimal | enum | unlisted => rfl
  | _ => cases hl

theorem LogicalType.Wf.leaf {kind : TypeKind} {children : List LogicalType}
    (h : (LogicalType.node kind children).Wf) (hl : kind.isLeaf = true) :
    children = [] ∧ (LogicalType.node kind children).Plain := by
  have hs := h.shape
  have hempty : children = [] := by
    cases kind with
    | scalar | unlisted => exact hs
    | decimal | enum => exact hs.1
    | _ => cases hl
  subst hempty
  refine ⟨rfl, .node (TypeKind.sharesSlots_of_isLeaf hl) (fun names hk => ?_) fun u hu => ?_⟩
  · obtain rfl : kind = .union names := hk
    cases hl
  · cases hu

/-- A scalar is supplied by one call. -/
theorem assembled_leaf {kind : TypeKind} (hl : kind.isLeaf = true) {children : List LogicalType}
    {log : List Supply} {x : Value} (h : assembled (.node kind children) log = some x) :
    log = [.value x] := by
  unfold assembled at h
  cases log with
  | nil => cases h
  | cons y rest =>
    cases y with
    | value y =>
      cases rest with
      | nil =>
        cases h
        rfl
      | cons => cases h
    | beginStruct | beginUnion =>
      cases kind with
      | scalar | decimal | enum | unlisted => cases h
      | _ => cases hl

/-- An accepted `append` stores a value. -/
theorem Append.accepted_plain {a : Append} {s : Appender} {col : Column} {chunk w : Vec}
    (hplain : col.type.Plain) (hwf : col.type.Wf) (hready : Ready cfg.eng col.type chunk)
    (hk : s.rowIdx < cfg.eng.vectorSize) (ha : col.arraySize = 1) (hpa : col.parentArraySize = 1)
    (hx : a.write (s.env cfg) col chunk = .ok () w) :
    col.colType ∈ a.types ∧ ∃ x, (a.stored col.colType).value col.kind = some x := by
  have hput := Append.write_plain (a := a) (v := chunk) hplain hwf hready
    (show (s.env cfg).rowIdx < (s.env cfg).eng.vectorSize from hk) ha hpa
  rw [hx] at hput
  refine ⟨?_, ?_⟩
  · obtain ⟨_, _, hcheck, -⟩ := bind_eq_ok.1 hx
    exact (require_eq_ok.1 hcheck).1
  · cases hput with
    | stored _ hvalue _ => exact ⟨_, hvalue⟩

/-- A `VARIANT` takes no `append`. -/
theorem Append.not_variant {a : Append} {kind : TypeKind} (h : kind.colType ∈ a.types) :
    kind ≠ .unlisted .variant := by
  rintro rfl
  replace h : CAPIType.invalid ∈ a.types := h
  cases a with
  | prim k | boxed k => cases k <;> simp [types, PrimKind.types] at h
  | _ => simp [types, timestampLocalTypes, collectionTypes] at h

/-- **What is read is what was appended.**  An `append` in the column `t` of a row returned
    normally, and the row is in the table: `getObject` on it returns what the caller was
    promised. -/
theorem appended_readBack (henv : env.KeepsTexts) (h₀ : create cfg = .ok s₀)
    (heng : cfg.eng.WritesDefaults cfg.columns default)
    (hplace : cfg.eng.DefaultsInPlace cfg.columns) (before after : List (Call × Natives))
    {a : Append} {m : Natives} (hcalls : calls = before ++ (.append a, m) :: after)
    (hfits : ∀ e ∈ history cfg s₀ calls, e.fits cfg default)
    (ht : cfg.columns[i]? = some t) (hl : t.kind.isLeaf = true) (hk : t.kind.NumbersMembers)
    (hcur : (exec cfg s₀ before).currentColumn = some (.top i t))
    (hok : isOk (step cfg (.append a) m (exec cfg s₀ before)))
    {r : Row} (hr : r ∈ (exec cfg s₀ calls).table) (hid : r.id = (exec cfg s₀ before).rowId)
    {n p : ℕ} {v : FlatVector} {column : DuckDBVector} (hfetch : FetchedAs env r i t n v column p)
    {o : JObject} (ho : a.Promises env t.kind o) : column.getObject env p = .ok o := by
  subst hcalls
  have hmem := List.mem_of_getElem? ht
  obtain ⟨kind, children⟩ := t
  have hwf := cfg.tableType.wf _ hmem
  obtain ⟨rfl, hplain⟩ := hwf.leaf hl
  -- the row has one value in the column
  obtain ⟨x, hx, hassembled⟩ :=
    has_exec h₀ heng hplace hfits ht hplain (List.mem_append_left _ hr)
  have hlog := assembled_leaf hl hassembled
  -- the call has supplied it
  have hpre : before <+: before ++ (.append a, m) :: after := List.prefix_append _ _
  have htr := tracks_exec h₀ heng hplace ht hplain (fits_of_extension hpre hfits)
  rw [hid, history_append, history] at hlog
  have hs := step_spec cfg (.append a) m (exec cfg s₀ before)
  generalize step cfg (.append a) m (exec cfg s₀ before) = result at hs hok hlog
  cases hs with
  | refused | appendFailed => cases hok
  | @append _ _ _ col w hcl hc hwrite =>
    rw [hcur] at hc
    cases hc
    have hcol : (Column.top i (.node kind [])).type.Plain := hplain
    obtain ⟨htypes, y, hy⟩ := Append.accepted_plain hcol hwf htr.ready
      (rowIdx_lt_exec h₀ before hcl) rfl rfl hwrite
    have hsupply : .value y ∈ [Supply.value x] := by
      rw [← hlog]
      refine List.mem_filterMap.2 ⟨_, List.mem_append_right _ List.mem_cons_self, ?_⟩
      refine (if_pos ⟨rfl, ?_⟩).trans ((Entry.supply_append hcur).trans ?_)
      · exact congrArg (Option.map Supply.value) hy
      · show (exec cfg s₀ before).currentTopLevelColumn.map Column.idx = some i
        rw [Appender.currentTopLevelColumn, hcur]
        rfl
    cases List.mem_singleton.1 hsupply
    have hleaf := (hfetch.getObject hwf).trans
      (slotObject_leaf hwf hl (Append.not_variant htypes) (hfetch.slot.trans hx))
    exact hleaf.trans (ho.leafObject henv hk htypes hy)

theorem toList_loop (bs : ByteArray) (i : ℕ) (r : List UInt8) :
    ByteArray.toList.loop bs i r = r.reverse ++ bs.data.toList.drop i := by
  fun_induction ByteArray.toList.loop bs i r with
  | case1 i r h ih =>
    have hget : bs.get! i = bs.data.toList[i] := by
      simp [ByteArray.get!, getElem!_pos bs.data i h]
    rw [ih, hget, List.reverse_cons, List.append_assoc, List.singleton_append,
      List.getElem_cons_drop]
  | case2 i r h =>
    rw [List.drop_of_length_le (Nat.le_of_not_lt h), List.append_nil]

/-- A platform that decodes UTF-8. -/
def Platform.unicode : Platform :=
  { Platform.utc with
    decodeCharbuffer := fun bytes => (String.fromUTF8? ⟨bytes.toArray⟩).getD "" }

theorem keepsTexts_unicode : Platform.unicode.KeepsTexts := by
  refine ⟨fun s => ?_, fun _ _ => rfl⟩
  have hlist : utf8 s = s.toByteArray.data.toList := toList_loop _ 0 []
  have hbytes : (⟨(utf8 s).toArray⟩ : ByteArray) = s.toByteArray := by rw [hlist]
  show (String.fromUTF8? ⟨(utf8 s).toArray⟩).getD "" = s
  rw [hbytes, String.fromUTF8?, dif_pos s.isValidUTF8]
  rfl

/-- The column `[7]` of type `INTEGER`. -/
def integerVector : FlatVector := fun _ => ⟨.integer, fun _ => true, fun _ => .fixed 7, 0⟩

theorem appended_readBack_integerRow : ∃ column w,
    fetchColumn .unicode 1 integerVector = .ok column w ∧
      column.getObject .unicode (0 : ℕ) = .ok (.number .integer 7) := by
  have heng : (Config.plain integerTable).eng.WritesDefaults (Config.plain integerTable).columns
      fun _ => .null := ⟨nofun, nofun⟩
  have hplace : (Config.plain integerTable).eng.DefaultsInPlace
      (Config.plain integerTable).columns := ⟨nofun, nofun⟩
  have hfits : ∀ e ∈ history (.plain integerTable) (Config.plain integerTable).start
      (integerRow ++ [(.close, .success)]), e.fits (.plain integerTable) fun _ => .null := by
    have hbuf : ∀ e ∈ history (.plain integerTable) (Config.plain integerTable).start
        (integerRow ++ [(.close, .success)]), Resettable (.plain integerTable) e.before.chunk := by
      decide
    refine fun e he => ⟨hbuf e he, fun hd => ?_⟩
    simp only [integerRow, List.map_cons, List.map_nil, List.cons_append, List.nil_append, history,
      List.mem_cons, List.not_mem_nil, or_false] at he
    rcases he with rfl | rfl | rfl | rfl
    all_goals cases hd
  obtain ⟨column, w, hfetch⟩ : ∃ column w, fetchColumn .unicode 1 integerVector = .ok column w :=
    ⟨_, _, rfl⟩
  have hfetched :
      FetchedAs .unicode ⟨0, 0, [some (.fixed 7)]⟩ 0 .integer 1 integerVector column 0 :=
    ⟨rfl, ⟨w, hfetch⟩, Nat.one_pos, rfl⟩
  refine ⟨column, w, hfetch, ?_⟩
  exact appended_readBack (t := .integer) keepsTexts_unicode (create_eq_start (by decide)) heng
    hplace [(.beginRow, .success)] [(.endRow, .success), (.close, .success)] rfl hfits rfl rfl
    trivial rfl rfl List.mem_cons_self rfl hfetched
    (.number (n := 7) rfl fun _ => by decide)

end DuckDBJava
