/-
  The column types of an appender (`DuckDBBindings.CAPIType` and the logical types of the C API)
  and its columns (the immutable part of `DuckDBAppender.Column`).
-/
import Mathlib.Algebra.Order.Ring.Int
import Mathlib.Tactic.Common

namespace DuckDBJava

/-- `DuckDBBindings.CAPIType`. -/
inductive CAPIType where
  | invalid | boolean | tinyint | smallint | integer | bigint
  | utinyint | usmallint | uinteger | ubigint | float | double
  | timestamp | date | time | interval | hugeint | uhugeint
  | varchar | blob | decimal | timestampS | timestampMs | timestampNs
  | enum | list | struct | map | array | uuid | union | bit | timeTz | timestampTz
  | any | varint | sqlnull | stringLiteral | integerLiteral
  deriving DecidableEq, Repr

namespace CAPIType

/-- `CAPIType.widthBytes`. -/
def widthBytes : CAPIType → ℕ
  | boolean | tinyint | utinyint => 1
  | smallint | usmallint => 2
  | integer | uinteger | float | date => 4
  | bigint | ubigint | double | timestamp | time | timestampS | timestampMs | timestampNs
  | timeTz | timestampTz => 8
  | hugeint | uhugeint | varchar | blob | list | map | uuid => 16
  | invalid | interval | decimal | enum | struct | array | union | bit | any | varint | sqlnull
  | stringLiteral | integerLiteral => 0

/-- The types with neither parameters nor children. -/
def isScalar : CAPIType → Bool
  | decimal | enum | list | struct | map | array | union => false
  | _ => true

end CAPIType

/-- The types the engine has beside those of `CAPIType`: `JSON` is a `VARCHAR` under an alias, and
    the others have no id there. -/
inductive UnlistedType where
  | json | timeNs | geometry | variant
  deriving DecidableEq, Repr

/-- `duckdb_get_type_id`, with the id of `INVALID` for the types the C API has none for. -/
def UnlistedType.colType : UnlistedType → CAPIType
  | json => .varchar
  | timeNs | geometry | variant => .invalid

theorem UnlistedType.colType_isScalar (t : UnlistedType) : t.colType.isScalar = true := by
  cases t <;> rfl

/-- A logical type without its children: the type id and what the C API tells about it. -/
inductive TypeKind where
  | scalar (colType : CAPIType) (h : colType.isScalar = true)
  | decimal (internalType : CAPIType) (precision scale : ℕ)
  | enum (internalType : CAPIType) (dict : List String)
  | list
  | map
  | array (size : ℕ)
  /-- `names` are the field names, in order. -/
  | struct (names : List String)
  /-- `names` are the child names, that of the tag child first. -/
  | union (names : List String)
  | unlisted (type : UnlistedType)
  deriving DecidableEq

namespace TypeKind

def colType : TypeKind → CAPIType
  | scalar t _ => t
  | decimal .. => .decimal
  | enum .. => .enum
  | list => .list
  | map => .map
  | array _ => .array
  | struct _ => .struct
  | union _ => .union
  | unlisted t => t.colType

/-- `capiTypeFromTypeId` knows the id of the type; it does not know that of `TIME_NS`. -/
def hasTypeId : TypeKind → Bool
  | unlisted .timeNs => false
  | _ => true

/-- `Column.widthBytes()`. -/
def widthBytes : TypeKind → ℕ
  | decimal internalType _ _ => internalType.widthBytes
  | enum internalType _ => internalType.widthBytes
  | k => k.colType.widthBytes

theorem widthBytes_of_colType {k : TypeKind} (hd : k.colType ≠ .decimal) (he : k.colType ≠ .enum) :
    k.widthBytes = k.colType.widthBytes := by
  cases k with
  | decimal => exact absurd rfl hd
  | enum => exact absurd rfl he
  | _ => rfl

/-- `Column.arraySize` of a child: the array size below an `ARRAY`, else `1`. -/
def childArraySize : TypeKind → ℕ
  | array n => n
  | _ => 1

/-- `LIST` or `MAP`: the children live in a vector of their own size. -/
def isListOrMap : TypeKind → Bool
  | list | map => true
  | _ => false

theorem isListOrMap_of_ne {k : TypeKind} (hl : k.colType ≠ .list) (hm : k.colType ≠ .map) :
    k.isListOrMap = false := by
  cases k with
  | list => exact absurd rfl hl
  | map => exact absurd rfl hm
  | _ => rfl

/-- Not `ARRAY`, `LIST` or `MAP`: the children, if any, have the slots of their parent. -/
def sharesSlots : TypeKind → Bool
  | array _ | list | map => false
  | _ => true

/-- `Column.structFieldName` of the `i`-th child. -/
def childName : TypeKind → ℕ → Option String
  | struct names, i | union names, i => names[i]?
  | _, _ => none

end TypeKind

/-- A logical type: a tree of kinds.  A `LIST` and an `ARRAY` have their element type as only
    child, a `MAP` the `STRUCT` of key and value, a `UNION` the tag and then its members. -/
inductive LogicalType where
  | node (kind : TypeKind) (children : List LogicalType)

namespace LogicalType

def kind : LogicalType → TypeKind
  | node k _ => k

def children : LogicalType → List LogicalType
  | node _ cs => cs

def colType (t : LogicalType) : CAPIType := t.kind.colType

@[simp] theorem kind_node (k : TypeKind) (cs : List LogicalType) : (node k cs).kind = k := rfl
@[simp] theorem children_node (k : TypeKind) (cs : List LogicalType) :
    (node k cs).children = cs := rfl

/-- Induction along the children. -/
@[elab_as_elim]
theorem ind {P : LogicalType → Prop} (h : ∀ k cs, (∀ t ∈ cs, P t) → P (node k cs)) : ∀ t, P t
  | node k cs => h k cs (indList cs)
where
  indList : ∀ cs : List LogicalType, ∀ t ∈ cs, P t
    | [], _, ht => absurd ht List.not_mem_nil
    | t :: ts, u, hu => (List.mem_cons.1 hu).elim (fun e => e ▸ ind h t) (indList ts u)

mutual

/-- `capiTypeFromTypeId` knows the ids of the type and of its children. -/
def hasTypeIds : LogicalType → Bool
  | node k cs => k.hasTypeId && allHaveTypeIds cs

def allHaveTypeIds : List LogicalType → Bool
  | [] => true
  | t :: ts => t.hasTypeIds && allHaveTypeIds ts

end

/-- What the engine guarantees of the children of a type. -/
def ShapeOK : TypeKind → List LogicalType → Prop
  | .scalar .., cs => cs = []
  | .decimal t _ _, cs => cs = [] ∧ t ∈ [CAPIType.smallint, .integer, .bigint, .hugeint]
  | .enum t _, cs => cs = [] ∧ t ∈ [CAPIType.utinyint, .usmallint, .uinteger]
  | .list, cs => ∃ t, cs = [t]
  | .map, cs => ∃ ns k v, cs = [node (.struct ns) [k, v]]
  | .array n, cs => 0 < n ∧ ∃ t, cs = [t]
  | .struct ns, cs => cs ≠ [] ∧ ns.length = cs.length
  | .union ns, cs => (∃ t ts, cs = node (.scalar .utinyint rfl) [] :: t :: ts) ∧
      ns.length = cs.length
  | .unlisted _, cs => cs = []

/-- The logical types the engine builds. -/
inductive Wf : LogicalType → Prop
  | node {k cs} : ShapeOK k cs → (∀ t ∈ cs, Wf t) → Wf (node k cs)

theorem Wf.shape {t : LogicalType} (h : t.Wf) : ShapeOK t.kind t.children := by
  cases h with
  | node hs _ => exact hs

theorem Wf.child {t u : LogicalType} (h : t.Wf) (hu : u ∈ t.children) : u.Wf := by
  cases h with
  | node _ hc => exact hc u hu

/-- The child of a `LIST` or `MAP` is its only one. -/
theorem Wf.index_eq_zero {t u : LogicalType} (h : t.Wf) (hk : t.kind.isListOrMap = true) {i : ℕ}
    (hu : t.children[i]? = some u) : i = 0 := by
  obtain ⟨kind, cs⟩ := t
  have hs := h.shape
  cases kind with
  | list =>
    obtain ⟨w, hw⟩ := hs
    rw [hw, List.getElem?_singleton] at hu
    by_contra hi
    rw [if_neg hi] at hu; cases hu
  | map =>
    obtain ⟨ns, k, w, hw⟩ := hs
    rw [hw, List.getElem?_singleton] at hu
    by_contra hi
    rw [if_neg hi] at hu; cases hu
  | _ => cases hk

end LogicalType

/-- An `INTEGER` column. -/
def LogicalType.integer : LogicalType := .node (.scalar .integer (.refl true)) []

theorem LogicalType.scalar_wf (t : CAPIType) (h : t.isScalar = true) :
    (node (.scalar t h) []).Wf :=
  .node rfl fun _ h => absurd h List.not_mem_nil

theorem LogicalType.integer_wf : LogicalType.integer.Wf := scalar_wf _ _

/-- `ARRAY(t, n)`. -/
def LogicalType.arrayOf (n : ℕ) (t : LogicalType) : LogicalType := .node (.array n) [t]

theorem LogicalType.arrayOf_wf {n : ℕ} {t : LogicalType} (hn : 0 < n) (h : t.Wf) :
    (arrayOf n t).Wf :=
  .node ⟨hn, t, rfl⟩ fun _ hu => List.mem_singleton.1 hu ▸ h

/-- `LIST(t)`. -/
def LogicalType.listOf (t : LogicalType) : LogicalType := .node .list [t]

theorem LogicalType.listOf_wf {t : LogicalType} (h : t.Wf) : (listOf t).Wf :=
  .node ⟨t, rfl⟩ fun _ hu => List.mem_singleton.1 hu ▸ h

/-- The columns of a table: at least one, of types the engine builds. -/
structure TableType where
  columns : List LogicalType
  ne : columns ≠ []
  wf : ∀ t ∈ columns, t.Wf

/-- A column of the appender: `parent`, `idx` and the type of `DuckDBAppender.Column`. -/
inductive Column where
  | top (idx : ℕ) (type : LogicalType)
  | child (parent : Column) (idx : ℕ) (type : LogicalType)

namespace Column

def parent : Column → Option Column
  | top .. => none
  | child p _ _ => some p

def idx : Column → ℕ
  | top i _ | child _ i _ => i

def type : Column → LogicalType
  | top _ t | child _ _ t => t

def kind (c : Column) : TypeKind := c.type.kind

def colType (c : Column) : CAPIType := c.type.colType

theorem widthBytes_eq {c : Column} {t : CAPIType} (h : c.colType = t) (hd : t ≠ .decimal)
    (he : t ≠ .enum) : c.kind.widthBytes = c.colType.widthBytes := by
  have hkind : c.kind.colType = t := h
  exact TypeKind.widthBytes_of_colType (hkind ▸ hd) (hkind ▸ he)

/-- `children.get(i)`. -/
def get? (c : Column) (i : ℕ) : Option Column := c.type.children[i]?.map (child c i)

/-- `children.size()`. -/
def childCount (c : Column) : ℕ := c.type.children.length

/-- `Column.arraySize`. -/
def arraySize : Column → ℕ
  | top .. => 1
  | child p _ _ => p.kind.childArraySize

/-- `Column.parentArraySize()`. -/
def parentArraySize : Column → ℕ
  | top .. => 1
  | child p _ _ => p.arraySize

/-- Where the column is, leaf first; `[i]` is the `i`-th top-level column. -/
def path : Column → List ℕ
  | top i _ => [i]
  | child p i _ => i :: p.path

/-- A column of the table with the columns `cols`. -/
def In (cols : List LogicalType) : Column → Prop
  | top i t => cols[i]? = some t
  | child p i t => p.In cols ∧ p.type.children[i]? = some t

@[simp] theorem kind_top (i : ℕ) (t : LogicalType) : (top i t).kind = t.kind := rfl
@[simp] theorem kind_child (p : Column) (i : ℕ) (t : LogicalType) :
    (child p i t).kind = t.kind := rfl

theorem path_ne_nil (c : Column) : c.path ≠ [] := by cases c <;> exact List.cons_ne_nil _ _

/-- The columns of a table are determined by their paths. -/
theorem In.eq_of_path {cols : List LogicalType} : ∀ {c d : Column}, c.In cols → d.In cols →
    c.path = d.path → c = d
  | top i t, top j u, hc, hd, h => by
    simp only [path, List.cons.injEq, and_true] at h
    subst h
    rw [In] at hc hd
    rw [Option.some.inj (hc.symm.trans hd)]
  | top i t, child p j u, _, _, h => by
    simp only [path, List.cons.injEq] at h
    exact absurd h.2.symm p.path_ne_nil
  | child p i t, top j u, _, _, h => by
    simp only [path, List.cons.injEq] at h
    exact absurd h.2 p.path_ne_nil
  | child p i t, child q j u, hc, hd, h => by
    simp only [path, List.cons.injEq] at h
    obtain ⟨rfl, hpq⟩ := h
    obtain rfl := hc.1.eq_of_path hd.1 hpq
    rw [Option.some.inj (hc.2.symm.trans hd.2)]

end Column

end DuckDBJava
