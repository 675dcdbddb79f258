/-
  The pinned databases.

  `Knows` says what a thread knows at its places in `pinDB`, `releaseDB` and the shutdown hook:
  that it has `pinnedDbRefsLock`, and that the map holds the references that live, or, in the loop
  of the hook, that the references left in the loop are those that live.  A failing
  `duckdb_jdbc_destroy_db_ref` breaks this unless it is the first call of the hook.
  **`pin_registry`**: while that does not happen, the registry keeps its promises.
-/
import DuckDBJava.Driver.Machine
import Mathlib.Data.List.Nodup

namespace DuckDBJava.Driver

open SessionInit Parties

/-! ## What the registry promises -/

section
variable (σ : Shared)

/-- Reference `r` was created and not destroyed. -/
def Live (r : ℕ) : Prop := r < σ.refs.length ∧ r ∉ σ.destroyed

/-- The url of the `connect` that has pinned `r` names the database `dbName`. -/
def PinnedAs (r : ℕ) (dbName : List Char) : Prop :=
  ∃ ref, σ.refs[r]? = some ref ∧ dbNameFromUrl ref.url = .ok dbName

/-- The database is pinned. -/
def Pinned (dbName : List Char) : Prop := ∃ r, Live σ r ∧ PinnedAs σ r dbName

end

/-- If a call of `duckdb_jdbc_destroy_db_ref` fails, it is the first one of the hook. -/
def DestroyFailsFirstOnly : Condition Shared Local Input
  | _, .answer ok, .releaseLocked url, σ => (dbRefOf σ url).isSome = true → ok = true
  | _, .answer ok, .hookDestroy dbRefsList, σ =>
    dbRefsList ≠ [] → dbRefsList ≠ (σ.pinnedDbRefs.map Prod.snd).reverse → ok = true
  | _, _, _, _ => True

instance (t : Tid) (n : Input) (l : Local) (σ : Shared) :
    Decidable (DestroyFailsFirstOnly t n l σ) :=
  match n with
  | .op _ => isTrue trivial
  | .answer _ => by
    unfold DestroyFailsFirstOnly
    split <;> infer_instance

/-- The promises, in one state: no reference is destroyed twice, all are destroyed when the hook has
    run, `releaseDB` says whether the database was pinned (if it is, and its reference cannot be
    destroyed, `releaseDB` throws), and there is one reference to a name. -/
structure PinRegistry (env : Env) (s : System Shared Local) : Prop where
  once : ∀ r, s.shared.destroyed.count r ≤ 1
  hookRun : s.shared.pinnedDbRefsShutdownHookRun = true →
    ∀ r < s.shared.refs.length, s.shared.destroyed.count r = 1
  releases : ∀ t url dbName ok, s.locals t = .releaseLocked url →
    dbNameFromUrl url = .ok dbName → (Pinned s.shared dbName → ok = true) → ∃ result,
      (Parties.step (exec env) s (t, .answer ok)).locals t = .releaseUnlock (some result) ∧
        (result = true ↔ Pinned s.shared dbName)
  single : ∀ r r' dbName, Live s.shared r → Live s.shared r' → PinnedAs s.shared r dbName →
    PinnedAs s.shared r' dbName → r = r'

/-! ## What the threads know -/

/-- Between `lock()` and `unlock()` of `pinnedDbRefsLock`. -/
def Local.holdsPins : Local → Bool
  | .pinLocked _ _ | .registerHook _ _ | .pinUnlock _ _ _ | .releaseLocked _ | .releaseUnlock _
  | .hookLocked | .hookDestroy _ | .hookUnlock => true
  | _ => false

/-- In the shutdown hook. -/
def Local.inHook : Local → Bool
  | .hook | .hookLocked | .hookDestroy _ | .hookUnlock => true
  | _ => false

/-- The map holds the references that live, under their names. -/
structure Held (σ : Shared) : Prop where
  keys : (σ.pinnedDbRefs.map Prod.fst).Nodup
  entries : σ.pinnedDbRefsShutdownHookRun = false →
    ∀ dbName r, (dbName, r) ∈ σ.pinnedDbRefs ↔ Live σ r ∧ PinnedAs σ r dbName

/-- In the loop of the hook; the map is as it was before the loop. -/
structure Looping (dbRefsList : List ℕ) (σ : Shared) : Prop where
  keys : (σ.pinnedDbRefs.map Prod.fst).Nodup
  nodup : dbRefsList.Nodup
  live : ∀ r, Live σ r ↔ r ∈ dbRefsList
  fewer : dbRefsList.length ≤ σ.pinnedDbRefs.length
  first : dbRefsList = (σ.pinnedDbRefs.map Prod.snd).reverse → Held σ

/-- What holds at any time. -/
structure Registry (σ : Shared) : Prop where
  nodup : σ.destroyed.Nodup
  created : ∀ r ∈ σ.destroyed, r < σ.refs.length
  named : ∀ r < σ.refs.length, ∃ dbName, PinnedAs σ r dbName
  single : ∀ r r' dbName, Live σ r → Live σ r' → PinnedAs σ r dbName → PinnedAs σ r' dbName → r = r'
  run : σ.pinnedDbRefsShutdownHookRun = true → ∀ r, ¬ Live σ r
  unregistered : σ.pinnedDbRefsShutdownHookRegistered = false →
    σ.hooks = [] ∧ σ.pinnedDbRefsShutdownHookRun = false
  one : σ.hooks.length ≤ 1
  waiting : none ∈ σ.hooks → σ.pinnedDbRefsShutdownHookRun = false
  held : σ.pinnedDbRefsLock = none → Held σ

/-- What the thread with the lock knows of the map. -/
def KnowsMap : Local → Shared → Prop
  | .registerHook _ _, σ => Held σ ∧ σ.pinnedDbRefsShutdownHookRegistered = false
  | .hookDestroy dbRefsList, σ => Looping dbRefsList σ
  | _, σ => Held σ

/-- What thread `t` knows. -/
structure Knows (t : Tid) (l : Local) (σ : Shared) : Prop where
  lock : l.holdsPins = true → σ.pinnedDbRefsLock = some t
  map : l.holdsPins = true → KnowsMap l σ
  hook : l.inHook = true → σ.hooks = [some t]
  notRun : l.inHook = true → l ≠ .hookUnlock → σ.pinnedDbRefsShutdownHookRun = false

/-! ## Steps outside the lock -/

/-- The registry is the same. -/
structure SamePins (σ τ : Shared) : Prop where
  map : τ.pinnedDbRefs = σ.pinnedDbRefs
  registered : τ.pinnedDbRefsShutdownHookRegistered = σ.pinnedDbRefsShutdownHookRegistered
  run : τ.pinnedDbRefsShutdownHookRun = σ.pinnedDbRefsShutdownHookRun
  refs : τ.refs = σ.refs
  destroyed : τ.destroyed = σ.destroyed

namespace SamePins

variable {σ τ : Shared}

theorem live (h : SamePins σ τ) {r : ℕ} : Live τ r ↔ Live σ r := by
  rw [Live, Live, h.refs, h.destroyed]

theorem pinnedAs (h : SamePins σ τ) {r : ℕ} {dbName : List Char} :
    PinnedAs τ r dbName ↔ PinnedAs σ r dbName := by
  rw [PinnedAs, PinnedAs, h.refs]

theorem held (h : SamePins σ τ) (hσ : Held σ) : Held τ := by
  refine ⟨h.map ▸ hσ.keys, fun hrun dbName r => ?_⟩
  rw [h.map, h.live, h.pinnedAs]
  exact hσ.entries (h.run ▸ hrun) dbName r

theorem looping (h : SamePins σ τ) {rest : List ℕ} (hσ : Looping rest σ) : Looping rest τ := by
  refine ⟨h.map ▸ hσ.keys, hσ.nodup, fun r => h.live.trans (hσ.live r), h.map ▸ hσ.fewer, ?_⟩
  intro hfirst
  exact h.held (hσ.first (h.map ▸ hfirst))

theorem knowsMap (h : SamePins σ τ) {l : Local} (hσ : KnowsMap l σ) : KnowsMap l τ := by
  cases l with
  | registerHook p c => exact ⟨h.held hσ.1, h.registered.trans hσ.2⟩
  | hookDestroy rest => exact h.looping hσ
  | _ => exact h.held hσ

/-- The same registry, lock and hooks. -/
theorem registry (h : SamePins σ τ) (hσ : Registry σ) (hlock : τ.pinnedDbRefsLock = none → Held τ)
    (hone : τ.hooks.length ≤ 1) (hwait : none ∈ τ.hooks → none ∈ σ.hooks)
    (hunreg : σ.hooks = [] → τ.hooks = []) : Registry τ where
  nodup := h.destroyed ▸ hσ.nodup
  created := by rw [h.destroyed, h.refs]; exact hσ.created
  named r hr := by
    obtain ⟨dbName, hn⟩ := hσ.named r (h.refs ▸ hr)
    exact ⟨dbName, h.pinnedAs.2 hn⟩
  single r r' dbName hr hr' hn hn' :=
    hσ.single r r' dbName (h.live.1 hr) (h.live.1 hr') (h.pinnedAs.1 hn) (h.pinnedAs.1 hn')
  run hrun r hr := hσ.run (h.run ▸ hrun) r (h.live.1 hr)
  unregistered hreg := by
    have hσ' := hσ.unregistered (h.registered ▸ hreg)
    exact ⟨hunreg hσ'.1, h.run.trans hσ'.2⟩
  one := hone
  waiting hw := h.run.trans (hσ.waiting (hwait hw))
  held := hlock

end SamePins

/-- The engine calls that leave the registry, its lock and the hooks alone. -/
structure Quiet (σ τ : Shared) : Prop extends SamePins σ τ where
  lock : τ.pinnedDbRefsLock = σ.pinnedDbRefsLock
  hooks : τ.hooks = σ.hooks

theorem Quiet.refl (σ : Shared) : Quiet σ σ := ⟨⟨rfl, rfl, rfl, rfl, rfl⟩, rfl, rfl⟩

theorem startup_quiet (env : Env) (t : Tid) (σ : Shared) (dbName : List Char) :
    Quiet σ (σ.startup env t dbName) := by
  unfold Shared.startup
  split
  · exact ⟨⟨rfl, rfl, rfl, rfl, rfl⟩, rfl, rfl⟩
  · split <;> exact ⟨⟨rfl, rfl, rfl, rfl, rfl⟩, rfl, rfl⟩

/-- What a step can do that a thread makes without the lock. -/
inductive Outside (t : Tid) (l : Local) (σ : Shared) : Local × Shared → Prop
  | quiet {l' τ} : Quiet σ τ → l'.holdsPins = false → (l'.inHook = true → l = .hook) →
      Outside t l σ (l', τ)
  | startHook : none ∈ σ.hooks →
      Outside t l σ (.hook, { σ with hooks := σ.hooks.set (σ.hooks.idxOf none) (some t) })
  | lock {l'} : σ.pinnedDbRefsLock = none → l'.holdsPins = true → (∀ σ, KnowsMap l' σ ↔ Held σ) →
      (l'.inHook = true → l = .hook ∧ l' = .hookLocked) →
      Outside t l σ (l', { σ with pinnedDbRefsLock := some t })

section
variable {env : Env} {t : Tid} {n : Input} {l : Local} {σ : Shared}

theorem call_outside (o : Op) : Outside t .idle σ (call env t σ o) := by
  have hsame : Outside t .idle σ (.idle, σ) := .quiet (.refl σ) rfl nofun
  cases o with
  | connect r =>
    simp only [call]
    split
    · exact .quiet (.refl σ) rfl nofun
    · exact hsame
  | releaseDB url => exact .quiet (.refl σ) rfl nofun
  | close c =>
    simp only [call]
    split
    · exact .quiet ⟨⟨rfl, rfl, rfl, rfl, rfl⟩, rfl, rfl⟩ rfl nofun
    · exact hsame
  | duplicate c =>
    simp only [call]
    split
    · exact .quiet ⟨⟨rfl, rfl, rfl, rfl, rfl⟩, rfl, rfl⟩ rfl nofun
    · exact hsame
  | shutdown => exact .quiet ⟨⟨rfl, rfl, rfl, rfl, rfl⟩, rfl, rfl⟩ rfl nofun
  | startHook =>
    simp only [call]
    split
    · next h => exact .startHook h.2
    · exact hsame

/-- The steps of a thread that does not have the lock. -/
theorem exec_outside (hl : l.holdsPins = false) : Outside t l σ (exec env t n l σ) := by
  have hquiet : ∀ r : Local × Shared, Quiet σ r.2 → r.1.holdsPins = false →
      r.1.inHook = false → Outside t l σ r := by
    rintro ⟨l', τ⟩ hτ hl' hhook
    exact .quiet hτ hl' fun h => absurd (hhook.symm.trans h) (by decide)
  have hself : Outside t l σ (l, σ) := by
    refine .quiet (.refl σ) hl fun h => ?_
    cases l <;> simp_all [Local.holdsPins, Local.inHook]
  cases n with
  | op o =>
    cases l with
    | idle => exact call_outside o
    | _ => exact hself
  | answer ok =>
    cases l with
    | idle => exact hself
    | newConnection p =>
      simp only [exec, newConnection]
      split
      · exact hquiet _ (startup_quiet env t σ p.dbName) rfl rfl
      · exact hquiet _ (.refl σ) rfl rfl
    | setAutoCommit p c =>
      simp only [exec, setAutoCommit]
      split <;> exact hquiet _ (.refl σ) rfl rfl
    | pinDB p c =>
      simp only [exec, pinDB]
      split
      · exact hquiet _ (.refl σ) rfl rfl
      · split
        · next h => exact .lock h rfl (fun _ => Iff.rfl) nofun
        · exact hself
    | runSessionInitSQLFile p c =>
      simp only [exec, runSessionInitSQLFile]
      split
      · exact hquiet _ (.refl σ) rfl rfl
      · split
        · exact hquiet _ ⟨⟨rfl, rfl, rfl, rfl, rfl⟩, rfl, rfl⟩ rfl rfl
        · exact hself
    | initDb p c sf =>
      simp only [exec, initDb]
      split
      · exact hquiet _ (.refl σ) rfl rfl
      · split
        · cases ok <;> exact hquiet _ ⟨⟨rfl, rfl, rfl, rfl, rfl⟩, rfl, rfl⟩ rfl rfl
        · exact hquiet _ (.refl σ) rfl rfl
    | initDbClose p c sf =>
      simp only [exec, initDbClose]
      split
      · exact hquiet _ ⟨⟨rfl, rfl, rfl, rfl, rfl⟩, rfl, rfl⟩ rfl rfl
      · exact hquiet _ (.refl σ) rfl rfl
    | initConn p c sf =>
      simp only [exec, initConn]
      split
      · exact hquiet _ (.refl σ) rfl rfl
      · cases ok <;> exact hquiet _ ⟨⟨rfl, rfl, rfl, rfl, rfl⟩, rfl, rfl⟩ rfl rfl
    | initConnClose p c => exact hquiet _ (.refl σ) rfl rfl
    | initUnlock p c thrown =>
      cases thrown <;> exact hquiet _ ⟨⟨rfl, rfl, rfl, rfl, rfl⟩, rfl, rfl⟩ rfl rfl
    | returnConn p c => exact hquiet _ ⟨⟨rfl, rfl, rfl, rfl, rfl⟩, rfl, rfl⟩ rfl rfl
    | closeQuietly c =>
      cases ok <;> exact hquiet _ ⟨⟨rfl, rfl, rfl, rfl, rfl⟩, rfl, rfl⟩ rfl rfl
    | releaseDB url =>
      simp only [exec, releaseDB]
      split
      · next h => exact .lock h rfl (fun _ => Iff.rfl) nofun
      · exact hself
    | hook =>
      simp only [exec, hook]
      split
      · next h => exact .lock h rfl (fun _ => Iff.rfl) fun _ => ⟨rfl, rfl⟩
      · exact hself
    | _ => cases hl

end

/-! ## Steps with the lock -/

theorem PinnedAs.unique {σ : Shared} {r : ℕ} {m m' : List Char} (h : PinnedAs σ r m)
    (h' : PinnedAs σ r m') : m = m' := by
  obtain ⟨ref, href, hm⟩ := h
  obtain ⟨ref', href', hm'⟩ := h'
  rw [href] at href'
  cases href'
  rw [hm] at hm'
  exact Except.ok.inj hm'

theorem mem_of_lookup {m : List (List Char × ℕ)} {k : List Char} {r : ℕ}
    (h : m.lookup k = some r) : (k, r) ∈ m := by
  obtain ⟨m₁, m₂, rfl, -⟩ := List.lookup_eq_some_iff.1 h
  simp

/-- A reference is pinned. -/
structure Created (p : Prepared) (c : ℕ) (σ τ : Shared) : Prop where
  map : τ.pinnedDbRefs = σ.pinnedDbRefs ++ [(p.dbName, σ.refs.length)]
  refs : τ.refs = σ.refs ++ [⟨σ.instOf c, p.url⟩]
  destroyed : τ.destroyed = σ.destroyed
  registered : τ.pinnedDbRefsShutdownHookRegistered = σ.pinnedDbRefsShutdownHookRegistered
  run : τ.pinnedDbRefsShutdownHookRun = σ.pinnedDbRefsShutdownHookRun
  lock : τ.pinnedDbRefsLock = σ.pinnedDbRefsLock
  hooks : τ.hooks = σ.hooks

namespace Created

variable {p : Prepared} {c : ℕ} {σ τ : Shared}

theorem live (h : Created p c σ τ) (hσ : Registry σ) {r : ℕ} :
    Live τ r ↔ Live σ r ∨ r = σ.refs.length := by
  rw [Live, Live, h.refs, h.destroyed, List.length_append, List.length_singleton]
  constructor
  · rintro ⟨hr, hnot⟩
    rcases Nat.lt_succ_iff_lt_or_eq.1 hr with hlt | heq
    · exact .inl ⟨hlt, hnot⟩
    · exact .inr heq
  · rintro (⟨hr, hnot⟩ | rfl)
    · exact ⟨Nat.lt_succ_of_lt hr, hnot⟩
    · exact ⟨Nat.lt_succ_self _, fun hmem => Nat.lt_irrefl _ (hσ.created _ hmem)⟩

theorem pinnedAs_old (h : Created p c σ τ) {r : ℕ} {m : List Char} (hr : r < σ.refs.length) :
    PinnedAs τ r m ↔ PinnedAs σ r m := by
  rw [PinnedAs, PinnedAs, h.refs, List.getElem?_append_left hr]

theorem pinnedAs_new (h : Created p c σ τ) {m : List Char} :
    PinnedAs τ σ.refs.length m ↔ m = p.dbName := by
  rw [PinnedAs, h.refs]
  simp [p.names_url, eq_comm]

/-- A new reference under a new name. -/
theorem registry (h : Created p c σ τ) (hσ : Registry σ) (hheld : Held σ)
    (hrun : σ.pinnedDbRefsShutdownHookRun = false) (hnew : σ.pinnedDbRefs.lookup p.dbName = none)
    (hlock : σ.pinnedDbRefsLock ≠ none) : Registry τ ∧ Held τ := by
  have hfresh : ∀ r, Live σ r → ¬ PinnedAs σ r p.dbName := by
    intro r hr hn
    have hmem := (hheld.entries hrun p.dbName r).2 ⟨hr, hn⟩
    simpa using List.lookup_eq_none_iff.1 hnew _ hmem
  have hold : ∀ r m, Live σ r → (PinnedAs τ r m ↔ PinnedAs σ r m) :=
    fun r m hr => h.pinnedAs_old hr.1
  refine ⟨⟨h.destroyed ▸ hσ.nodup, ?_, ?_, ?_, ?_, ?_, h.hooks ▸ hσ.one, ?_, ?_⟩, ?_, ?_⟩
  · intro r hr
    rw [h.refs, List.length_append, List.length_singleton]
    exact Nat.lt_succ_of_lt (hσ.created r (h.destroyed ▸ hr))
  · intro r hr
    rw [h.refs, List.length_append, List.length_singleton] at hr
    rcases Nat.lt_succ_iff_lt_or_eq.1 hr with hlt | rfl
    · obtain ⟨m, hm⟩ := hσ.named r hlt
      exact ⟨m, (h.pinnedAs_old hlt).2 hm⟩
    · exact ⟨_, h.pinnedAs_new.2 rfl⟩
  · intro r r' m hr hr' hm hm'
    rcases (h.live hσ).1 hr with hr | rfl
    · rcases (h.live hσ).1 hr' with hr' | rfl
      · exact hσ.single r r' m hr hr' ((hold r m hr).1 hm) ((hold r' m hr').1 hm')
      · rw [h.pinnedAs_new.1 hm'] at hm
        exact absurd ((hold r _ hr).1 hm) (hfresh r hr)
    · rcases (h.live hσ).1 hr' with hr' | rfl
      · rw [h.pinnedAs_new.1 hm] at hm'
        exact absurd ((hold r' _ hr').1 hm') (hfresh r' hr')
      · rfl
  · intro hτ
    rw [h.run, hrun] at hτ
    cases hτ
  · intro hreg
    rw [h.hooks, h.run]
    exact hσ.unregistered (h.registered ▸ hreg)
  · intro hw
    rw [h.run]
    exact hσ.waiting (h.hooks ▸ hw)
  · intro hτ
    exact absurd (h.lock ▸ hτ) hlock
  · rw [h.map, List.map_append, List.nodup_append]
    refine ⟨hheld.keys, by simp, ?_⟩
    rintro m hm m' hm' rfl
    obtain ⟨⟨m, r⟩, hmem, rfl⟩ := List.mem_map.1 hm
    obtain rfl : m = p.dbName := by simpa using hm'
    simpa using List.lookup_eq_none_iff.1 hnew _ hmem
  · intro _ m r
    rw [h.map, List.mem_append, hheld.entries hrun, h.live hσ]
    constructor
    · rintro (⟨hr, hm⟩ | hmem)
      · exact ⟨.inl hr, (hold r m hr).2 hm⟩
      · obtain ⟨rfl, rfl⟩ : m = p.dbName ∧ r = σ.refs.length := by simpa using hmem
        exact ⟨.inr rfl, h.pinnedAs_new.2 rfl⟩
    · rintro ⟨hr | rfl, hm⟩
      · exact .inl ⟨hr, (hold r m hr).1 hm⟩
      · rw [h.pinnedAs_new.1 hm]
        exact .inr (by simp)

end Created

/-- Reference `r` is destroyed. -/
structure Destroyed (r : ℕ) (σ τ : Shared) : Prop where
  refs : τ.refs = σ.refs
  destroyed : τ.destroyed = σ.destroyed ++ [r]
  registered : τ.pinnedDbRefsShutdownHookRegistered = σ.pinnedDbRefsShutdownHookRegistered
  run : τ.pinnedDbRefsShutdownHookRun = σ.pinnedDbRefsShutdownHookRun
  lock : τ.pinnedDbRefsLock = σ.pinnedDbRefsLock
  hooks : τ.hooks = σ.hooks

namespace Destroyed

variable {r : ℕ} {σ τ : Shared}

theorem live (h : Destroyed r σ τ) {r' : ℕ} : Live τ r' ↔ Live σ r' ∧ r' ≠ r := by
  rw [Live, Live, h.refs, h.destroyed]
  simp [and_assoc]

theorem pinnedAs (h : Destroyed r σ τ) {r' : ℕ} {m : List Char} :
    PinnedAs τ r' m ↔ PinnedAs σ r' m := by
  rw [PinnedAs, PinnedAs, h.refs]

/-- A reference that lives is destroyed under the lock. -/
theorem registry (h : Destroyed r σ τ) (hσ : Registry σ) (hr : Live σ r)
    (hlock : σ.pinnedDbRefsLock ≠ none) : Registry τ where
  nodup := by
    rw [h.destroyed, List.nodup_append]
    refine ⟨hσ.nodup, by simp, ?_⟩
    rintro r' hr' _ hmem rfl
    obtain rfl : r' = r := by simpa using hmem
    exact hr.2 hr'
  created := by
    intro r' hr'
    rw [h.destroyed, List.mem_append] at hr'
    rw [h.refs]
    rcases hr' with hr' | hr'
    · exact hσ.created r' hr'
    · obtain rfl : r' = r := by simpa using hr'
      exact hr.1
  named r' hr' := by
    obtain ⟨m, hm⟩ := hσ.named r' (h.refs ▸ hr')
    exact ⟨m, h.pinnedAs.2 hm⟩
  single r' r'' m hr' hr'' hm hm' :=
    hσ.single r' r'' m (h.live.1 hr').1 (h.live.1 hr'').1 (h.pinnedAs.1 hm) (h.pinnedAs.1 hm')
  run hrun r' hr' := hσ.run (h.run ▸ hrun) r' (h.live.1 hr').1
  unregistered hreg := by
    rw [h.hooks, h.run]
    exact hσ.unregistered (h.registered ▸ hreg)
  one := h.hooks ▸ hσ.one
  waiting hw := h.run.trans (hσ.waiting (h.hooks ▸ hw))
  held hτ := absurd (h.lock ▸ hτ) hlock

/-- `releaseDB` takes the entry out of the map. -/
theorem held (h : Destroyed r σ τ) (hσ : Registry σ) (hheld : Held σ) {m : List Char}
    (hrun : σ.pinnedDbRefsShutdownHookRun = false) (hmem : (m, r) ∈ σ.pinnedDbRefs)
    (hmap : τ.pinnedDbRefs = σ.pinnedDbRefs.filter fun en => en.1 != m) : Held τ := by
  have hr := (hheld.entries hrun m r).1 hmem
  refine ⟨?_, fun _ m' r' => ?_⟩
  · rw [hmap]
    exact hheld.keys.sublist (List.filter_sublist.map _)
  · rw [hmap, List.mem_filter, hheld.entries hrun, h.live, h.pinnedAs]
    constructor
    · rintro ⟨⟨hr', hm'⟩, hne⟩
      refine ⟨⟨hr', ?_⟩, hm'⟩
      rintro rfl
      simp [hm'.unique hr.2] at hne
    · rintro ⟨⟨hr', hne⟩, hm'⟩
      refine ⟨⟨hr', hm'⟩, ?_⟩
      rw [bne_iff_ne]
      rintro rfl
      exact hne (hσ.single r' r _ hr' hr.1 hm' hr.2)

/-- A round of the loop of the hook. -/
theorem looping {rest : List ℕ} (h : Destroyed r σ τ) (hσ : Looping (r :: rest) σ)
    (hmap : τ.pinnedDbRefs = σ.pinnedDbRefs) : Looping rest τ where
  keys := hmap ▸ hσ.keys
  nodup := hσ.nodup.of_cons
  live r' := by
    rw [h.live, hσ.live, List.mem_cons]
    constructor
    · rintro ⟨rfl | hr', hne⟩
      · exact absurd rfl hne
      · exact hr'
    · intro hr'
      refine ⟨.inr hr', ?_⟩
      rintro rfl
      exact (List.nodup_cons.1 hσ.nodup).1 hr'
  fewer := by
    have hlen := hσ.fewer
    rw [List.length_cons] at hlen
    rw [hmap]
    omega
  first hfirst := by
    have hlen := hσ.fewer
    have hall := congrArg List.length hfirst
    rw [List.length_cons] at hlen
    rw [List.length_reverse, List.length_map, hmap] at hall
    omega

end Destroyed

/-- The hook starts its loop with the references that live. -/
theorem Held.looping {σ : Shared} (h : Held σ) (hσ : Registry σ)
    (hrun : σ.pinnedDbRefsShutdownHookRun = false) :
    Looping (σ.pinnedDbRefs.map Prod.snd).reverse σ where
  keys := h.keys
  nodup := by
    rw [List.nodup_reverse]
    refine (List.Nodup.of_map _ h.keys).map_on ?_
    rintro ⟨m, r⟩ hmem ⟨m', r'⟩ hmem' (rfl : r = r')
    have hm := ((h.entries hrun m r).1 hmem).2
    rw [hm.unique ((h.entries hrun m' r).1 hmem').2]
  live r := by
    rw [List.mem_reverse, List.mem_map]
    constructor
    · intro hr
      obtain ⟨m, hm⟩ := hσ.named r hr.1
      exact ⟨(m, r), (h.entries hrun m r).2 ⟨hr, hm⟩, rfl⟩
    · rintro ⟨⟨m, r'⟩, hmem, rfl⟩
      exact ((h.entries hrun m r').1 hmem).1
  fewer := by simp
  first _ := h

/-! ## Every step -/

section
variable {env : Env} {t t' : Tid} {n : Input} {l l' : Local} {σ τ : Shared}

theorem Knows.free (hl : l.holdsPins = false) (hhook : l.inHook = false) : Knows t l σ where
  lock h := absurd (hl.symm.trans h) (by decide)
  map h := absurd (hl.symm.trans h) (by decide)
  hook h := absurd (hhook.symm.trans h) (by decide)
  notRun h := absurd (hhook.symm.trans h) (by decide)

/-- With the lock, outside the hook. -/
theorem Knows.holding (hhook : l.inHook = false) (hlock : σ.pinnedDbRefsLock = some t)
    (hmap : KnowsMap l σ) : Knows t l σ where
  lock _ := hlock
  map _ := hmap
  hook h := absurd (hhook.symm.trans h) (by decide)
  notRun h := absurd (hhook.symm.trans h) (by decide)

/-- Only one hook was added, so that no other one can start. -/
theorem Registry.hooks_of_mem {a : Option Tid} (h : Registry σ) (ha : a ∈ σ.hooks) :
    σ.hooks = [a] := by
  have hone := h.one
  match hhooks : σ.hooks with
  | [] => simp [hhooks] at ha
  | [b] =>
    obtain rfl : a = b := by simpa [hhooks] using ha
    rfl
  | _ :: _ :: _ => simp [hhooks] at hone

/-- A step outside the lock. -/
theorem Outside.own {r : Local × Shared} (h : Outside t l σ r) (hσ : Registry σ)
    (hl : Knows t l σ) : Registry r.2 ∧ Knows t r.1 r.2 := by
  cases h with
  | quiet hq hl' hhook =>
    refine ⟨hq.registry hσ (fun hnone => hq.held (hσ.held (hq.lock ▸ hnone)))
      (hq.hooks ▸ hσ.one) (hq.hooks ▸ id) (hq.hooks ▸ id), ?_⟩
    refine ⟨fun h => absurd (hl'.symm.trans h) (by decide),
      fun h => absurd (hl'.symm.trans h) (by decide), fun h => ?_, fun h _ => ?_⟩
    · rw [hq.hooks]
      exact hl.hook (by rw [hhook h]; rfl)
    · rw [hq.run]
      exact hl.notRun (by rw [hhook h]; rfl) (by rw [hhook h]; exact nofun)
  | startHook hnone =>
    have hhooks := hσ.hooks_of_mem hnone
    have hrun := hσ.waiting hnone
    have hset : σ.hooks.set (σ.hooks.idxOf none) (some t) = [some t] := by simp [hhooks]
    have hsame : SamePins σ { σ with hooks := σ.hooks.set (σ.hooks.idxOf none) (some t) } :=
      ⟨rfl, rfl, rfl, rfl, rfl⟩
    refine ⟨hsame.registry hσ (fun h => ?_) ?_ ?_ ?_, ?_⟩
    · exact hsame.held (hσ.held h)
    · simp [hset]
    · simp [hset]
    · simp [hhooks]
    · exact ⟨nofun, nofun, fun _ => hset, fun _ _ => hrun⟩
  | lock hfree hholds hmap hhook =>
    have hsame : SamePins σ { σ with pinnedDbRefsLock := some t } := ⟨rfl, rfl, rfl, rfl, rfl⟩
    refine ⟨hsame.registry hσ nofun hσ.one id id, fun _ => rfl, fun _ => ?_, fun h => ?_,
      fun h _ => ?_⟩
    · exact (hmap _).2 (hsame.held (hσ.held hfree))
    · exact hl.hook (by rw [(hhook h).1]; rfl)
    · exact hl.notRun (by rw [(hhook h).1]; rfl) (by rw [(hhook h).1]; exact nofun)

/-- `unlock()`. -/
theorem unlock_own (hσ : Registry σ) (hheld : Held σ) (hl : l.holdsPins = false)
    (hhook : l.inHook = false) : Registry { σ with pinnedDbRefsLock := none } ∧
      Knows t l { σ with pinnedDbRefsLock := none } :=
  have hsame : SamePins σ { σ with pinnedDbRefsLock := none } := ⟨rfl, rfl, rfl, rfl, rfl⟩
  ⟨hsame.registry hσ (fun _ => hsame.held hheld) hσ.one id id, .free hl hhook⟩

theorem pinLocked_own {p : Prepared} {c : ℕ} {ok : Bool} (hσ : Registry σ)
    (hl : Knows t (.pinLocked p c) σ) :
    Registry (pinLocked ok σ p c).2 ∧ Knows t (pinLocked ok σ p c).1 (pinLocked ok σ p c).2 := by
  have hlock := hl.lock rfl
  have hheld : Held σ := hl.map rfl
  unfold pinLocked
  split
  · exact ⟨hσ, .holding rfl hlock hheld⟩
  · next hcond =>
    rw [Bool.or_eq_true, not_or, Bool.not_eq_true, Bool.not_eq_true, Option.isSome_eq_false_iff,
      Option.isNone_iff_eq_none] at hcond
    split
    · have hnew : ∀ τ, Created p c σ τ → Registry τ ∧ Held τ := fun τ h =>
        h.registry hσ hheld hcond.1 hcond.2 (by rw [hlock]; exact nofun)
      obtain ⟨hreg, hheld'⟩ := hnew { σ.createDbRef c p.url with
        pinnedDbRefs := σ.pinnedDbRefs ++ [(p.dbName, σ.refs.length)] }
          ⟨rfl, rfl, rfl, rfl, rfl, rfl, rfl⟩
      dsimp only
      split
      · exact ⟨hreg, .holding rfl hlock hheld'⟩
      · next hfirst => exact ⟨hreg, .holding rfl hlock ⟨hheld', Bool.not_eq_true _ ▸ hfirst⟩⟩
    · exact ⟨hσ, .holding rfl hlock hheld⟩

theorem registerHook_own {p : Prepared} {c : ℕ} (hσ : Registry σ)
    (hl : Knows t (.registerHook p c) σ) :
    Registry (registerHook σ p c).2 ∧ Knows t (registerHook σ p c).1 (registerHook σ p c).2 := by
  have hlock := hl.lock rfl
  obtain ⟨hheld, hfirst⟩ : Held σ ∧ σ.pinnedDbRefsShutdownHookRegistered = false := hl.map rfl
  obtain ⟨hhooks, hrun⟩ := hσ.unregistered hfirst
  unfold registerHook
  split
  · exact ⟨hσ, .holding rfl hlock hheld⟩
  · refine ⟨⟨hσ.nodup, hσ.created, hσ.named, hσ.single, hσ.run, nofun, ?_, fun _ => hrun, ?_⟩, ?_⟩
    · simp [hhooks]
    · intro hnone
      exact absurd (hlock.symm.trans hnone) nofun
    · exact .holding rfl hlock ⟨hheld.keys, hheld.entries⟩

/-- The reference of `dbRefOf` lives, and its name is that of the url. -/
theorem dbRefOf_eq_some {url : List Char} {r : ℕ} (h : dbRefOf σ url = some r) :
    σ.pinnedDbRefsShutdownHookRun = false ∧ ∃ m, dbNameFromUrl url = .ok m ∧
      (m, r) ∈ σ.pinnedDbRefs := by
  unfold dbRefOf at h
  split at h
  · cases h
  · next hrun =>
    split at h
    · next m hm => exact ⟨by simpa using hrun, m, hm, mem_of_lookup h⟩
    · cases h

theorem releaseLocked_own {url : List Char} {ok : Bool} (hσ : Registry σ)
    (hmeets : (dbRefOf σ url).isSome = true → ok = true) (hl : Knows t (.releaseLocked url) σ) :
    Registry (releaseLocked ok σ url).2 ∧
      Knows t (releaseLocked ok σ url).1 (releaseLocked ok σ url).2 := by
  have hlock := hl.lock rfl
  have hheld : Held σ := hl.map rfl
  have hsame : ∀ result, Registry σ ∧ Knows t (.releaseUnlock result) σ :=
    fun _ => ⟨hσ, .holding rfl hlock hheld⟩
  unfold releaseLocked
  split
  · exact hsame _
  · next hrun =>
    rw [Bool.not_eq_true] at hrun
    split
    · exact hsame _
    · next m hm =>
      split
      · exact hsame _
      · next r hr =>
        have hmem := mem_of_lookup hr
        obtain rfl : ok = true := hmeets (by simp [dbRefOf, hrun, hm, hr])
        have hdestroyed : ∀ τ, Destroyed r σ τ →
            (τ.pinnedDbRefs = σ.pinnedDbRefs.filter fun en => en.1 != m) →
            Registry τ ∧ Held τ := fun τ h hmap =>
          ⟨h.registry hσ ((hheld.entries hrun m r).1 hmem).1 (by rw [hlock]; exact nofun),
            h.held hσ hheld hrun hmem hmap⟩
        obtain ⟨hreg, hheld'⟩ := hdestroyed
          ({ σ with pinnedDbRefs := σ.pinnedDbRefs.filter fun en => en.1 != m }.destroyDbRef r)
          ⟨rfl, rfl, rfl, rfl, rfl, rfl⟩ rfl
        exact ⟨hreg, .holding rfl hlock hheld'⟩

theorem hookDestroy_own {rest : List ℕ} {ok : Bool} (hσ : Registry σ)
    (hmeets : rest ≠ [] → rest ≠ (σ.pinnedDbRefs.map Prod.snd).reverse → ok = true)
    (hl : Knows t (.hookDestroy rest) σ) :
    Registry (hookDestroy ok σ rest).2 ∧
      Knows t (hookDestroy ok σ rest).1 (hookDestroy ok σ rest).2 := by
  have hlock := hl.lock rfl
  have hloop : Looping rest σ := hl.map rfl
  have hhooks := hl.hook rfl
  have hrun := hl.notRun rfl nofun
  cases rest with
  | nil =>
    have hnone : ∀ r, ¬ Live σ r := fun r hr => absurd ((hloop.live r).1 hr) List.not_mem_nil
    have hregistered : σ.pinnedDbRefsShutdownHookRegistered = true := by
      by_contra hreg
      have hempty := (hσ.unregistered (by simpa using hreg)).1
      rw [hhooks] at hempty
      cases hempty
    refine ⟨⟨hσ.nodup, hσ.created, hσ.named, hσ.single, fun _ => hnone, fun hreg => ?_, hσ.one,
      fun hw => ?_, fun hfree => ?_⟩, fun _ => hlock, fun _ => ⟨hloop.keys, nofun⟩, fun _ => hhooks,
      fun _ hne => absurd rfl hne⟩
    · exact absurd (hregistered.symm.trans hreg) (by decide)
    · have hw : none ∈ σ.hooks := hw
      simp [hhooks] at hw
    · exact absurd (hlock.symm.trans hfree) nofun
  | cons r rest =>
    cases ok with
    | true =>
      have hdestroyed : Destroyed r σ (σ.destroyDbRef r) := ⟨rfl, rfl, rfl, rfl, rfl, rfl⟩
      have hr := (hloop.live r).2 List.mem_cons_self
      exact ⟨hdestroyed.registry hσ hr (by rw [hlock]; exact nofun), fun _ => hlock,
        fun _ => hdestroyed.looping hloop rfl, fun _ => hhooks, fun _ _ => hrun⟩
    | false =>
      have hfirst : r :: rest = (σ.pinnedDbRefs.map Prod.snd).reverse := by
        by_contra hne
        exact absurd (hmeets nofun hne) (by decide)
      exact ⟨hσ, fun _ => hlock, fun _ => hloop.first hfirst, fun _ => hhooks, fun _ _ => hrun⟩

/-- What a step does that thread `t` makes with the lock. -/
theorem exec_inside (hl : l.holdsPins = true) (hσ : Registry σ) (hk : Knows t l σ)
    (hmeets : DestroyFailsFirstOnly t n l σ) :
    Registry (exec env t n l σ).2 ∧ Knows t (exec env t n l σ).1 (exec env t n l σ).2 := by
  cases n with
  | op o =>
    cases l with
    | idle => cases hl
    | _ => exact ⟨hσ, hk⟩
  | answer ok =>
    cases l with
    | pinLocked p c => exact pinLocked_own hσ hk
    | registerHook p c => exact registerHook_own hσ hk
    | pinUnlock p c thrown =>
      rcases thrown with _ | _ | _ <;> exact unlock_own hσ (hk.map rfl) rfl rfl
    | releaseLocked url => exact releaseLocked_own hσ hmeets hk
    | releaseUnlock result => exact unlock_own hσ (hk.map rfl) rfl rfl
    | hookLocked =>
      have hrun := hk.notRun rfl nofun
      have hheld : Held σ := hk.map rfl
      exact ⟨hσ, hk.lock, fun _ => hheld.looping hσ hrun, hk.hook, fun _ _ => hrun⟩
    | hookDestroy rest => exact hookDestroy_own hσ hmeets hk
    | hookUnlock => exact unlock_own hσ (hk.map rfl) rfl rfl
    | _ => cases hl

/-- The hooks and the flag of the hook, in a step with the lock. -/
theorem exec_inside_hooks (hl : l.holdsPins = true) :
    ((exec env t n l σ).2.hooks = σ.hooks ∨ ∃ p c, l = .registerHook p c) ∧
    ((exec env t n l σ).2.pinnedDbRefsShutdownHookRun = σ.pinnedDbRefsShutdownHookRun ∨
      l = .hookDestroy []) := by
  cases n with
  | op o =>
    cases l with
    | idle => cases hl
    | _ => exact ⟨.inl rfl, .inl rfl⟩
  | answer ok =>
    cases l with
    | pinLocked p c =>
      simp only [exec, pinLocked]
      split
      · exact ⟨.inl rfl, .inl rfl⟩
      · split
        · split <;> exact ⟨.inl rfl, .inl rfl⟩
        · exact ⟨.inl rfl, .inl rfl⟩
    | registerHook p c =>
      refine ⟨.inr ⟨p, c, rfl⟩, .inl ?_⟩
      simp only [exec, registerHook]
      split <;> rfl
    | releaseLocked url =>
      simp only [exec, releaseLocked]
      split
      · exact ⟨.inl rfl, .inl rfl⟩
      · split
        · exact ⟨.inl rfl, .inl rfl⟩
        · split
          · exact ⟨.inl rfl, .inl rfl⟩
          · split <;> exact ⟨.inl rfl, .inl rfl⟩
    | hookDestroy rest =>
      cases rest with
      | nil => exact ⟨.inl rfl, .inr rfl⟩
      | cons r rest => cases ok <;> exact ⟨.inl rfl, .inl rfl⟩
    | pinUnlock | releaseUnlock | hookLocked | hookUnlock => exact ⟨.inl rfl, .inl rfl⟩
    | _ => cases hl

/-- A thread without the lock knows at most that it runs the hook. -/
theorem Knows.of_hook (hl : l.holdsPins = false)
    (hhooks : l.inHook = true → τ.hooks = [some t])
    (hrun : l.inHook = true → l ≠ .hookUnlock → τ.pinnedDbRefsShutdownHookRun = false) :
    Knows t l τ where
  lock h := absurd (hl.symm.trans h) (by decide)
  map h := absurd (hl.symm.trans h) (by decide)
  hook := hhooks
  notRun := hrun

/-- A step of one thread, seen by another. -/
theorem exec_others (ht : t ≠ t') (hσ : Registry σ) (hk : Knows t l σ) (hk' : Knows t' l' σ) :
    Knows t' l' (exec env t n l σ).2 := by
  cases hl : l.holdsPins with
  | true =>
    have hfree : l'.holdsPins = false := by
      by_contra hholds
      have hlock := (hk.lock hl).symm.trans (hk'.lock (by simpa using hholds))
      exact ht (Option.some.inj hlock)
    obtain ⟨hhooks, hrun⟩ := @exec_inside_hooks env t n l σ hl
    refine Knows.of_hook hfree (fun h => ?_) fun h hne => ?_
    · rcases hhooks with hsame | ⟨p, c, rfl⟩
      · exact hsame.trans (hk'.hook h)
      · obtain ⟨-, hfirst⟩ : Held σ ∧ _ = false := hk.map rfl
        have hhook := hk'.hook h
        rw [(hσ.unregistered hfirst).1] at hhook
        cases hhook
    · rcases hrun with hsame | rfl
      · exact hsame.trans (hk'.notRun h hne)
      · have hboth := (hk.hook rfl).symm.trans (hk'.hook h)
        exact absurd (by simpa using hboth) ht
  | false =>
    have hout := @exec_outside env t n l σ hl
    generalize exec env t n l σ = r at hout ⊢
    cases hout with
    | quiet hq =>
      exact ⟨fun h => hq.lock.trans (hk'.lock h), fun h => hq.knowsMap (hk'.map h),
        fun h => hq.hooks.trans (hk'.hook h), fun h hne => hq.run.trans (hk'.notRun h hne)⟩
    | startHook hnone =>
      have hsame : SamePins σ { σ with hooks := σ.hooks.set (σ.hooks.idxOf none) (some t) } :=
        ⟨rfl, rfl, rfl, rfl, rfl⟩
      refine ⟨hk'.lock, fun h => hsame.knowsMap (hk'.map h), fun h => ?_, hk'.notRun⟩
      have hmem := hk'.hook h
      rw [hmem] at hnone
      simp at hnone
    | lock hfree =>
      have hfree' : l'.holdsPins = false := by
        by_contra hholds
        exact absurd (hfree.symm.trans (hk'.lock (by simpa using hholds))) nofun
      exact Knows.of_hook hfree' hk'.hook hk'.notRun

/-- What the threads know of the registry. -/
theorem pins_outline (env : Env) : Outline (exec env) DestroyFailsFirstOnly Knows Registry where
  own {t n l σ} hmeets hσ hk := by
    cases hl : l.holdsPins with
    | true => exact exec_inside hl hσ hk hmeets
    | false => exact (exec_outside hl).own hσ hk
  others ht _ hσ hk hk' := exec_others ht hσ hk hk'

end

/-! ## The result -/

theorem start_registry : Registry start.shared where
  nodup := List.nodup_nil
  created := nofun
  named := nofun
  single := nofun
  run := nofun
  unregistered _ := ⟨rfl, rfl⟩
  one := Nat.zero_le _
  waiting := nofun
  held _ := ⟨List.nodup_nil, fun _ _ _ => iff_of_false List.not_mem_nil fun h => nomatch h.1.1⟩

/-- `releaseDB` finds the reference of a database if and only if it is pinned. -/
theorem Held.lookup_isSome {σ : Shared} (h : Held σ) (hrun : σ.pinnedDbRefsShutdownHookRun = false)
    {m : List Char} : (σ.pinnedDbRefs.lookup m).isSome = true ↔ Pinned σ m := by
  constructor
  · intro hsome
    obtain ⟨r, hr⟩ := Option.isSome_iff_exists.1 hsome
    exact ⟨r, (h.entries hrun m r).1 (mem_of_lookup hr)⟩
  · rintro ⟨r, hr⟩
    by_contra hnone
    rw [Bool.not_eq_true, Option.isSome_eq_false_iff, Option.isNone_iff_eq_none] at hnone
    simpa using List.lookup_eq_none_iff.1 hnone _ ((h.entries hrun m r).2 hr)

theorem releaseLocked_result {σ : Shared} {url m : List Char} {ok : Bool} (hσ : Registry σ)
    (hheld : Held σ) (hm : dbNameFromUrl url = .ok m)
    (hok : Pinned σ m → ok = true) : ∃ result,
      (releaseLocked ok σ url).1 = .releaseUnlock (some result) ∧ (result = true ↔ Pinned σ m) := by
  unfold releaseLocked
  cases hrun : σ.pinnedDbRefsShutdownHookRun with
  | true =>
    refine ⟨false, rfl, iff_of_false (by decide) ?_⟩
    rintro ⟨r, hr, -⟩
    exact hσ.run hrun r hr
  | false =>
    have hpinned := hheld.lookup_isSome hrun (m := m)
    simp only [hm]
    cases hr : σ.pinnedDbRefs.lookup m with
    | none =>
      rw [hr] at hpinned
      exact ⟨false, rfl, hpinned⟩
    | some r =>
      rw [hr] at hpinned
      obtain rfl : ok = true := hok (hpinned.1 rfl)
      exact ⟨true, rfl, iff_of_true rfl (hpinned.1 rfl)⟩

/-- **While no call of `duckdb_jdbc_destroy_db_ref` fails but the first one of the hook, the pin
    registry keeps its promises.** -/
theorem pin_registry (env : Env) (picks : List (Tid × Input))
    (halong : Along (exec env) DestroyFailsFirstOnly picks start) :
    PinRegistry env (run (exec env) picks start) := by
  have hknown : Known Knows Registry (run (exec env) picks start) :=
    (pins_outline env).run picks halong ⟨start_registry, fun _ => .free rfl rfl⟩
  generalize run (exec env) picks start = s at hknown
  have hσ := hknown.holds
  refine ⟨fun r => List.nodup_iff_count_le_one.1 hσ.nodup r, fun hrun r hr => ?_, ?_, hσ.single⟩
  · refine List.count_eq_one_of_mem hσ.nodup ?_
    by_contra hnot
    exact hσ.run hrun r ⟨hr, hnot⟩
  · intro t url m ok hl hm hok
    have hk := hknown.knows t
    rw [hl] at hk
    have hstep : (Parties.step (exec env) s (t, .answer ok)).locals t =
        (releaseLocked ok s.shared url).1 := by
      simp [Parties.step, hl, exec]
    rw [hstep]
    exact releaseLocked_result hσ (hk.map rfl) hm hok

/-- Two databases are pinned, and the JVM starts the hook. -/
def pinTwo : List (Tid × Input) :=
  (0, connectTo "jdbc:duckdb:memory:a;jdbc_pin_db=true".toList []) :: goes 0 (.replicate 8 true) ++
  (0, connectTo "jdbc:duckdb:memory:b;jdbc_pin_db=true".toList []) :: goes 0 (.replicate 7 true) ++
  [(0, .op .shutdown), (1, .op .startHook)] ++ goes 1 [true, true]

/-- `releaseDB` for the second database. -/
def releaseSecond : List (Tid × Input) :=
  (0, .op (.releaseDB "jdbc:duckdb: memory:b ;threads=1".toList)) :: goes 0 [true, true, true]

/-- The first call of the hook fails. -/
theorem pin_registry_released : PinRegistry plainEnv
    (run (exec plainEnv) (pinTwo ++ goes 1 [false, true] ++ releaseSecond) start) :=
  pin_registry plainEnv _ (by decide)

/-- The second call of the hook fails: the reference that the first one has destroyed stays in the
    map, and `releaseDB` destroys it again. -/
theorem pin_registry_hook_fails : ¬ PinRegistry plainEnv
    (run (exec plainEnv) (pinTwo ++ goes 1 [true, false, true] ++ releaseSecond) start) := by
  intro h
  have htwice : (run (exec plainEnv) (pinTwo ++ goes 1 [true, false, true] ++ releaseSecond)
    start).shared.destroyed = [1, 1] := by decide
  have honce := h.once 1
  rw [htwice] at honce
  exact absurd honce (by decide)

end DuckDBJava.Driver
