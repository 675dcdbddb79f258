/-
  The session init SQL file of `DuckDBDriver.connect`.

  `String.split` drops empty pieces at the end, so that a marker at the end of the file is not
  counted.  **`session_init_iff`**: the file is split as its markers say, if and only if it is not
  just one marker, and is not without text behind its second one.
-/
import DuckDBJava.Lib.Split

namespace DuckDBJava.SessionInit

open Splitting

/-! ## The marker -/

/-- `\s` of `java.util.regex`. -/
def isSpace (c : Char) : Bool := c.toNat = 32 || (9 ≤ c.toNat && c.toNat ≤ 13)

def opening : List Char := ['/', '*']
def keyword : List Char := "DUCKDB_CONNECTION_INIT_BELOW_MARKER".toList
def closing : List Char := ['*', '/']

/-- A match of `SESSION_INIT_SQL_CONN_INIT_MARKER`. -/
def IsMarker (w : List Char) : Prop :=
  ∃ ws ws' : List Char, (∀ c ∈ ws, isSpace c = true) ∧ (∀ c ∈ ws', isSpace c = true) ∧
    w = opening ++ ws ++ keyword ++ ws' ++ closing

/-- What is behind a match at the front of a text. -/
def matchMarker (text : List Char) : Option (List Char) := do
  let rest ← text.dropPrefix? opening
  let rest ← (rest.dropWhile isSpace).dropPrefix? keyword
  (rest.dropWhile isSpace).dropPrefix? closing

theorem dropPrefix_eq_some {text w r : List Char} :
    text.dropPrefix? w = some r ↔ text = w ++ r := by
  rw [List.dropPrefix?_eq_some_iff]
  constructor
  · rintro ⟨w', rfl, hw⟩
    rw [eq_of_beq hw]
  · rintro rfl
    exact ⟨w, rfl, beq_self_eq_true w⟩

/-- The blanks before a text that does not begin with one. -/
theorem dropWhile_spaces {ws text : List Char} (hws : ∀ c ∈ ws, isSpace c = true) {c : Char}
    {cs : List Char} (htext : text = c :: cs) (hc : isSpace c = false) :
    (ws ++ text).dropWhile isSpace = text := by
  rw [List.dropWhile_append_of_pos hws, htext, List.dropWhile_cons_of_neg (by rw [hc]; decide)]

theorem matchMarker_eq_some {text r : List Char} :
    matchMarker text = some r ↔ ∃ w, IsMarker w ∧ text = w ++ r := by
  simp only [matchMarker, Option.bind_eq_bind, Option.bind_eq_some_iff, dropPrefix_eq_some]
  constructor
  · rintro ⟨t, rfl, t', ht, hr⟩
    refine ⟨_, ⟨t.takeWhile isSpace, t'.takeWhile isSpace, fun c hc => ?_, fun c hc => ?_, rfl⟩, ?_⟩
    · exact List.mem_takeWhile_imp hc
    · exact List.mem_takeWhile_imp hc
    · calc
        opening ++ t = opening ++ (t.takeWhile isSpace ++ (keyword ++
            (t'.takeWhile isSpace ++ (closing ++ r)))) := by
          rw [← hr, List.takeWhile_append_dropWhile, ← ht, List.takeWhile_append_dropWhile]
        _ = _ := by simp only [List.append_assoc]
  · rintro ⟨w, ⟨ws, ws', hws, hws', rfl⟩, rfl⟩
    refine ⟨ws ++ (keyword ++ (ws' ++ (closing ++ r))), by simp only [List.append_assoc],
      ws' ++ (closing ++ r), ?_, ?_⟩
    · exact dropWhile_spaces hws rfl rfl
    · exact dropWhile_spaces hws' rfl rfl

/-- The markers of a text. -/
def markers : Matcher IsMarker where
  rest := matchMarker
  rest_eq_some := matchMarker_eq_some
  ne_nil := by
    rintro w ⟨ws, ws', -, -, rfl⟩
    exact List.cons_ne_nil _ _

/-- A slash is the first or the last character of a marker. -/
theorem IsMarker.slash {w : List Char} (h : IsMarker w) {k : ℕ} (hk : 0 < k)
    (hslash : w[k]? = some '/') : k + 1 = w.length := by
  obtain ⟨ws, ws', hws, hws', rfl⟩ := h
  have hspace : ∀ c, isSpace c = true → c ≠ '/' := by
    rintro c hc rfl
    exact absurd hc (by decide)
  have hkeyword : '/' ∉ keyword := by decide
  have hinner : ∀ c ∈ ['*'] ++ ws ++ keyword ++ ws' ++ ['*'], c ≠ '/' := by
    intro c hc
    simp only [List.mem_append, List.mem_singleton] at hc
    obtain (((rfl | hc) | hc) | hc) | rfl := hc
    · decide
    · exact hspace c (hws c hc)
    · exact fun hc' => hkeyword (hc' ▸ hc)
    · exact hspace c (hws' c hc)
    · decide
  have hw : opening ++ ws ++ keyword ++ ws' ++ closing =
      '/' :: (['*'] ++ ws ++ keyword ++ ws' ++ ['*'] ++ ['/']) := by
    simp only [opening, closing, List.append_assoc, List.cons_append, List.nil_append]
  rw [hw] at hslash ⊢
  obtain ⟨j, rfl⟩ : ∃ j, k = j + 1 := ⟨k - 1, by omega⟩
  rw [List.getElem?_cons_succ] at hslash
  generalize ['*'] ++ ws ++ keyword ++ ws' ++ ['*'] = inner at *
  have hlt := (List.getElem?_eq_some_iff.1 hslash).1
  rw [List.length_append, List.length_singleton] at hlt
  rw [List.length_cons, List.length_append, List.length_singleton]
  by_contra hne
  rw [List.getElem?_append_left (by omega)] at hslash
  exact hinner _ (List.mem_of_getElem? hslash) rfl

/-- Markers overlap in a slash at most. -/
theorem markers_endInOrder : EndsInOrder IsMarker := by
  intro a w b a' w' b' hw hw' htext hle
  by_cases hbehind : a.length + w.length ≤ a'.length
  · omega
  have hhead : (a' ++ w' ++ b')[a'.length]? = some '/' := by
    obtain ⟨ws, ws', -, -, rfl⟩ := hw'
    rw [List.append_assoc, List.getElem?_append_right le_rfl, Nat.sub_self]
    rfl
  rw [← htext, List.append_assoc, List.getElem?_append_right hle,
    List.getElem?_append_left (by omega)] at hhead
  by_cases hsame : a'.length = a.length
  · rw [List.append_assoc, List.append_assoc] at htext
    have hrest := (List.append_inj htext hsame.symm).2
    have hb := markers.rest_unique hw hw' hrest
    have hlength := congrArg List.length hrest
    rw [List.length_append, List.length_append, hb] at hlength
    omega
  · have hlast := hw.slash (by omega) hhead
    have hpos := List.length_pos_iff.2 (markers.ne_nil hw')
    omega

/-! ## The file -/

/-- What `connect` throws. -/
inductive ConnectError where
  | sqlException
  | arrayIndexOutOfBounds
  deriving DecidableEq

/-- `SessionInitSQLFile` -/
structure SessionInitSQLFile where
  origFileText : List Char
  dbInitSQL : List Char
  connInitSQL : List Char

/-- What `connect` takes from elsewhere: `InputStreamReader` for UTF-8, the digest in hexadecimal
    digits, `toLowerCase`, and whether the engine executes a text, or throws an `SQLException`. -/
structure InitEnv where
  decode : List UInt8 → List Char
  sha256 : List UInt8 → List Char
  toLowerCase : List Char → List Char
  execute : List Char → Bool

/-- `text.split(SESSION_INIT_SQL_CONN_INIT_MARKER)` -/
def splitAtMarkers (text : List Char) : List (List Char) :=
  match markers.find text with
  | none => [text]
  | some _ => (markers.split text).rdropWhile List.isEmpty

/-- `trim()` -/
def trim (text : List Char) : List Char :=
  (text.dropWhile fun c => decide (c.toNat ≤ 32)).rdropWhile fun c => decide (c.toNat ≤ 32)

/-- The end of `readSessionInitSQLFile`. -/
def partsOf (text : List Char) : Except ConnectError SessionInitSQLFile :=
  match splitAtMarkers text with
  | _ :: _ :: _ :: _ => .error .sqlException
  | [db] => .ok ⟨text, trim db, []⟩
  | [db, conn] => .ok ⟨text, trim db, trim conn⟩
  -- `parts[0]`
  | [] => .error .arrayIndexOutOfBounds

/-- `readSessionInitSQLFile`, with the value of `session_init_sql_file_sha256` or the empty text; no
    bytes stand for a failed read. -/
def readSessionInitSQLFile (env : InitEnv) (expectedSha256 : List Char)
    (file : Option (List UInt8)) : Except ConnectError SessionInitSQLFile :=
  match file with
  | none => .error .sqlException
  | some bytes =>
    if 2 ^ 20 < bytes.length then .error .sqlException
    else if expectedSha256 ≠ [] ∧ env.toLowerCase expectedSha256 ≠ env.sha256 bytes then
      .error .sqlException
    else partsOf (env.decode bytes)

/-- `if (run) stmt.execute(sql)` -/
def executeIf (env : InitEnv) (run : Bool) (sql : List Char) : Except ConnectError Unit :=
  if run && !env.execute sql then .error .sqlException else .ok ()

/-- `runSessionInitSQLFile`, where `dbInit` says that the database is not in memory and was
    initialized before. -/
def runSessionInitSQLFile (env : InitEnv) (dbInit : Bool) (sf : SessionInitSQLFile) :
    Except ConnectError Unit := do
  executeIf env (!sf.dbInitSQL.isEmpty && !dbInit) sf.dbInitSQL
  executeIf env (!sf.connInitSQL.isEmpty) sf.connInitSQL

/-- What `connect` does with the file. -/
def connect (env : InitEnv) (expectedSha256 : List Char) (file : Option (List UInt8))
    (dbInit : Bool) : Except ConnectError SessionInitSQLFile := do
  let sf ← readSessionInitSQLFile env expectedSha256 file
  runSessionInitSQLFile env dbInit sf
  return sf

/-! ## What the markers say -/

/-- The parts of a text with at most one marker. -/
inductive Designates (text : List Char) : SessionInitSQLFile → Prop
  | noMarker : ¬ Occurs IsMarker text → Designates text ⟨text, trim text, []⟩
  | marker {before behind : List Char} : First IsMarker text before behind →
      ¬ OccursTwice IsMarker text → Designates text ⟨text, trim before, trim behind⟩

/-- A text without two markers designates one pair of parts. -/
theorem exists_designates_iff {text : List Char} :
    (∃ sf, Designates text sf) ↔ ¬ OccursTwice IsMarker text := by
  constructor
  · rintro ⟨sf, hnone | ⟨-, htwice⟩⟩
    · exact fun htwice => hnone htwice.occurs
    · exact htwice
  · intro htwice
    obtain ⟨a, b, hfirst⟩ | hnone := markers.first_or_not_occurs text
    · exact ⟨_, .marker hfirst htwice⟩
    · exact ⟨_, .noMarker hnone⟩

/-- The file is small enough and has the digest that is asked for. -/
def Readable (env : InitEnv) (expectedSha256 : List Char) (bytes : List UInt8) : Prop :=
  bytes.length ≤ 2 ^ 20 ∧
    (expectedSha256 = [] ∨ env.toLowerCase expectedSha256 = env.sha256 bytes)

/-- The file is accepted with the parts that its text designates, and every other one is rejected
    with an `SQLException`, which is all that `connect` throws. -/
def AsClaimed (env : InitEnv) (expectedSha256 : List Char) (file : Option (List UInt8)) : Prop :=
  (∀ sf, readSessionInitSQLFile env expectedSha256 file = .ok sf ↔
    ∃ bytes, file = some bytes ∧ Readable env expectedSha256 bytes ∧
      Designates (env.decode bytes) sf) ∧
  ∀ dbInit e, connect env expectedSha256 file dbInit = .error e → e = .sqlException

/-- A text with one marker has something before or behind it; with more, it does not end with the
    second one and has not only markers behind it. -/
def HasText (text : List Char) : Prop :=
  ∀ before behind, First IsMarker text before behind →
    (Occurs IsMarker behind ∨ before ≠ [] ∨ behind ≠ []) ∧
      ∀ between rest, First IsMarker behind between rest → ¬ OnlyWords IsMarker rest

/-! ## Splitting -/

variable {text a b a' b' : List Char}

theorem splitAtMarkers_of_first (h : First IsMarker text a b) :
    splitAtMarkers text = (a :: markers.split b).rdropWhile List.isEmpty := by
  rw [splitAtMarkers, Matcher.find_eq_some.2 h, Matcher.split_of_first h]

/-- The text has no marker. -/
theorem partsOf_of_not_occurs (h : ¬ Occurs IsMarker text) :
    partsOf text = .ok ⟨text, trim text, []⟩ := by
  have hsplit : splitAtMarkers text = [text] := by
    rw [splitAtMarkers, Matcher.find_eq_none.2 h]
  rw [partsOf, hsplit]

/-- The text has one marker. -/
theorem partsOf_of_one (h : First IsMarker text a b) (hb : ¬ Occurs IsMarker b) :
    partsOf text = if a = [] ∧ b = [] then .error .arrayIndexOutOfBounds
      else .ok ⟨text, trim a, trim b⟩ := by
  have hsplit := splitAtMarkers_of_first h
  rw [Matcher.split_of_not_occurs hb] at hsplit
  rw [partsOf, hsplit]
  cases b with
  | cons c cs => rw [if_neg fun h => List.cons_ne_nil _ _ h.2]; rfl
  | nil =>
    cases a with
    | cons c cs => rw [if_neg fun h => List.cons_ne_nil _ _ h.1]; rfl
    | nil => rfl

/-- The text has more than one marker. -/
theorem partsOf_of_more (h : First IsMarker text a b) (h' : First IsMarker b a' b') :
    partsOf text = .error .sqlException ↔ ¬ OnlyWords IsMarker b' := by
  have hsplit := splitAtMarkers_of_first h
  have hall : (∀ p ∈ markers.split b', p.isEmpty = true) ↔ OnlyWords IsMarker b' := by
    simp only [List.isEmpty_iff]
    exact Matcher.split_all_nil
  rw [Matcher.split_of_first h'] at hsplit
  by_cases honly : OnlyWords IsMarker b'
  · have hparts : splitAtMarkers text = [a, a'].rdropWhile List.isEmpty :=
      hsplit.trans (rdropWhile_append_of_all [a, a'] (hall.2 honly))
    refine iff_of_false ?_ fun h => h honly
    rw [partsOf, hparts]
    cases a' with
    | cons c cs => exact fun h => by cases h
    | nil => cases a <;> exact fun h => by cases h
  · obtain ⟨x, xs, hx⟩ := rdropWhile_append_of_not_all [a, a'] (mt hall.1 honly)
    have hparts : splitAtMarkers text = a :: a' :: x :: xs := hsplit.trans hx
    refine iff_of_true ?_ honly
    rw [partsOf, hparts]

/-! ## The result -/

theorem executeIf_error {env : InitEnv} {run : Bool} {sql : List Char} {e : ConnectError}
    (h : executeIf env run sql = .error e) : e = .sqlException := by
  unfold executeIf at h
  split at h <;> cases h
  rfl

theorem runSessionInitSQLFile_error {env : InitEnv} {dbInit : Bool} {sf : SessionInitSQLFile}
    {e : ConnectError} (h : runSessionInitSQLFile env dbInit sf = .error e) :
    e = .sqlException := by
  unfold runSessionInitSQLFile at h
  cases hdb : executeIf env (!sf.dbInitSQL.isEmpty && !dbInit) sf.dbInitSQL with
  | error e' =>
    rw [hdb] at h
    cases h
    exact executeIf_error hdb
  | ok u =>
    rw [hdb] at h
    exact executeIf_error h

/-- `connect` throws what reading the file throws, and `SQLException`s. -/
theorem connect_error_iff {env : InitEnv} {sha : List Char} {file : Option (List UInt8)} :
    (∀ dbInit e, connect env sha file dbInit = .error e → e = .sqlException) ↔
      ∀ e, readSessionInitSQLFile env sha file = .error e → e = .sqlException := by
  constructor
  · intro h e he
    exact h false e (by rw [connect, he]; rfl)
  · intro h dbInit e he
    cases hread : readSessionInitSQLFile env sha file with
    | error e' =>
      rw [connect, hread] at he
      cases he
      exact h e hread
    | ok sf =>
      rw [connect, hread] at he
      change (runSessionInitSQLFile env dbInit sf >>= fun _ => .ok sf) = .error e at he
      cases hrun : runSessionInitSQLFile env dbInit sf with
      | error e' =>
        rw [hrun] at he
        cases he
        exact runSessionInitSQLFile_error hrun
      | ok u =>
        rw [hrun] at he
        cases he

/-- A text that is split into `sf`, as it is to be. -/
theorem split_right {sf : SessionInitSQLFile} (hparts : partsOf text = .ok sf)
    (hsf : ∀ sf', Designates text sf' ↔ sf = sf') :
    (∀ sf, partsOf text = .ok sf ↔ Designates text sf) ∧
      ∀ e, partsOf text = .error e → e = .sqlException := by
  rw [hparts]
  exact ⟨fun sf' => by rw [hsf, Except.ok.injEq], fun e he => by cases he⟩

theorem designates_of_not_occurs (h : ¬ Occurs IsMarker text) (sf : SessionInitSQLFile) :
    Designates text sf ↔ ⟨text, trim text, []⟩ = sf := by
  constructor
  · rintro (_ | ⟨hfirst, -⟩)
    · rfl
    · exact absurd hfirst.occurs h
  · rintro rfl
    exact .noMarker h

theorem designates_of_one (h : First IsMarker text a b) (hone : ¬ OccursTwice IsMarker text)
    (sf : SessionInitSQLFile) : Designates text sf ↔ ⟨text, trim a, trim b⟩ = sf := by
  constructor
  · rintro (hnone | ⟨hfirst, -⟩)
    · exact absurd h.occurs hnone
    · obtain ⟨rfl, rfl⟩ := markers.first_unique h hfirst
      rfl
  · rintro rfl
    exact .marker h hone

/-- The text of a file is split as its markers say. -/
theorem partsOf_iff (text : List Char) :
    ((∀ sf, partsOf text = .ok sf ↔ Designates text sf) ∧
      ∀ e, partsOf text = .error e → e = .sqlException) ↔ HasText text := by
  obtain ⟨a, b, hfirst⟩ | hnone := markers.first_or_not_occurs text
  · have htwice := occursTwice_iff markers_endInOrder hfirst
    obtain ⟨a', b', hsecond⟩ | hone := markers.first_or_not_occurs b
    · have hsf : ∀ sf, ¬ Designates text sf :=
        fun sf h => exists_designates_iff.1 ⟨sf, h⟩ (htwice.2 hsecond.occurs)
      have hmore := partsOf_of_more hfirst hsecond
      constructor
      · rintro ⟨hok, herror⟩ c d h
        obtain ⟨rfl, rfl⟩ := markers.first_unique h hfirst
        refine ⟨.inl hsecond.occurs, fun c' d' h' => ?_⟩
        obtain ⟨rfl, rfl⟩ := markers.first_unique h' hsecond
        refine hmore.1 ?_
        cases hparts : partsOf text with
        | ok sf => exact absurd ((hok sf).1 hparts) (hsf sf)
        | error e => rw [herror e hparts]
      · intro h
        rw [hmore.2 ((h a b hfirst).2 a' b' hsecond)]
        exact ⟨fun sf => iff_of_false (fun h => by cases h) (hsf sf), fun e he => by cases he; rfl⟩
    · have hparts := partsOf_of_one hfirst hone
      constructor
      · rintro ⟨-, herror⟩ c d h
        obtain ⟨rfl, rfl⟩ := markers.first_unique h hfirst
        refine ⟨.inr ?_, fun c' d' h' => absurd h'.occurs hone⟩
        by_contra hempty
        rw [not_or, not_not, not_not] at hempty
        rw [if_pos hempty] at hparts
        cases herror _ hparts
      · intro h
        have hsome := (h a b hfirst).1.resolve_left hone
        rw [if_neg fun hempty => hsome.elim (· hempty.1) (· hempty.2)] at hparts
        exact split_right hparts (designates_of_one hfirst (mt htwice.1 hone))
  · exact iff_of_true
      (split_right (partsOf_of_not_occurs hnone) (designates_of_not_occurs hnone))
      fun c d h => absurd h.occurs hnone

/-- A file that is not read, is too large or has another digest is rejected. -/
theorem read_of_not_readable {env : InitEnv} {sha : List Char} {bytes : List UInt8}
    (h : ¬ Readable env sha bytes) :
    readSessionInitSQLFile env sha (some bytes) = .error .sqlException := by
  simp only [readSessionInitSQLFile]
  by_cases hsize : 2 ^ 20 < bytes.length
  · rw [if_pos hsize]
  · have hsha : sha ≠ [] ∧ env.toLowerCase sha ≠ env.sha256 bytes :=
      not_or.1 fun hsha => h ⟨not_lt.1 hsize, hsha⟩
    rw [if_neg hsize, if_pos hsha]

theorem read_of_readable {env : InitEnv} {sha : List Char} {bytes : List UInt8}
    (h : Readable env sha bytes) :
    readSessionInitSQLFile env sha (some bytes) = partsOf (env.decode bytes) := by
  simp only [readSessionInitSQLFile]
  rw [if_neg (not_lt.2 h.1), if_neg (not_and_or.2 (h.2.imp not_not.2 not_not.2))]

/-- **Session-init file splitting.**  The driver accepts a file exactly if its text has at most one
    marker, takes the trimmed texts before and behind it, rejects every other one with an
    `SQLException` and throws nothing else, if and only if: a text with one marker has something
    before or behind it, and a text with more has something else than markers behind the second
    one. -/
theorem session_init_iff (env : InitEnv) (expectedSha256 : List Char) (file : Option (List UInt8)) :
    AsClaimed env expectedSha256 file ↔
      ∀ bytes, file = some bytes → Readable env expectedSha256 bytes →
        HasText (env.decode bytes) := by
  rw [AsClaimed, connect_error_iff]
  have hrejected (hread : readSessionInitSQLFile env expectedSha256 file = .error .sqlException)
      (hbad : ∀ bytes, file = some bytes → ¬ Readable env expectedSha256 bytes) :
      ((∀ sf, readSessionInitSQLFile env expectedSha256 file = .ok sf ↔
          ∃ bytes, file = some bytes ∧ Readable env expectedSha256 bytes ∧
            Designates (env.decode bytes) sf) ∧
        ∀ e, readSessionInitSQLFile env expectedSha256 file = .error e → e = .sqlException) := by
    rw [hread]
    refine ⟨fun sf => iff_of_false (fun h => by cases h) ?_, fun e he => by cases he; rfl⟩
    rintro ⟨bytes, hfile, hreadable, -⟩
    exact hbad bytes hfile hreadable
  cases file with
  | none =>
    exact iff_of_true (hrejected rfl fun bytes h => by cases h) fun bytes h => by cases h
  | some bytes =>
    by_cases hreadable : Readable env expectedSha256 bytes
    · have hdesignates : ∀ sf, (∃ bs, some bytes = some bs ∧ Readable env expectedSha256 bs ∧
          Designates (env.decode bs) sf) ↔ Designates (env.decode bytes) sf := by
        refine fun sf => ⟨?_, fun h => ⟨bytes, rfl, hreadable, h⟩⟩
        rintro ⟨bs, hbs, -, h⟩
        cases hbs
        exact h
      simp only [read_of_readable hreadable, hdesignates]
      rw [partsOf_iff]
      refine ⟨fun h bs hbs _ => ?_, fun h => h bytes rfl hreadable⟩
      cases hbs
      exact h
    · have hbad : ∀ bs, some bytes = some bs → ¬ Readable env expectedSha256 bs := by
        intro bs hbs
        cases hbs
        exact hreadable
      exact iff_of_true (hrejected (read_of_not_readable hreadable) hbad)
        fun bs hbs h => absurd h (hbad bs hbs)

/-- An environment for texts of Latin-1 characters, without digests. -/
def latin : InitEnv where
  decode := fun bytes => bytes.map fun b => Char.ofNat b.toNat
  sha256 := fun _ => []
  toLowerCase := id
  execute := fun _ => true

/-- A file that holds the marker only. -/
def markerOnly : List UInt8 := (opening ++ keyword ++ closing).map fun c => c.toNat.toUInt8

/-- A file with the marker only makes `connect` throw an `ArrayIndexOutOfBoundsException`. -/
theorem session_init_marker_only : ¬ ∀ (env : InitEnv) (expectedSha256 : List Char)
    (file : Option (List UInt8)), AsClaimed env expectedSha256 file := by
  intro h
  have hconnect := (h latin [] (some markerOnly)).2 false .arrayIndexOutOfBounds
  exact absurd (hconnect rfl) (by decide)

end DuckDBJava.SessionInit
