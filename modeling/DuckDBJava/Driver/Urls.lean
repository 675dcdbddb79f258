/-
  The urls and options of `DuckDBDriver.connect`.

  `Prepared` is what `connect` knows when it opens the native connection.  `dbNameFromUrl` reads
  the url of the user (in `releaseDB`) and the url without options (in `connect`):
  `dbNameFromUrl_shortUrl` says that both name the same database, and a `Prepared` carries this
  name.
-/
import DuckDBJava.Connection.SessionInit
import DuckDBJava.Lib.LinkedMap
import Mathlib.Logic.Function.Basic

namespace DuckDBJava.Driver

open SessionInit

/-! ## Urls -/

/-- `DUCKDB_URL_PREFIX` -/
def duckdbUrlStart : List Char := "jdbc:duckdb:".toList

/-- `DUCKLAKE_URL_PREFIX` -/
def ducklakeUrlStart : List Char := duckdbUrlStart ++ "ducklake:".toList

/-- `MEMORY_DB` -/
def memoryDb : List Char := ":memory:".toList

/-- `text.split(c)`: without the empty pieces at the end. -/
def split (c : Char) (text : List Char) : List (List Char) :=
  if c ∈ text then (text.splitOn c).rdropWhile List.isEmpty else [text]

def acceptsURL (url : List Char) : Bool := duckdbUrlStart.isPrefixOf url

/-- The url without options, in `dbNameFromUrl`. -/
def shortUrlOf (url : List Char) : Except ConnectError (List Char) :=
  if ';' ∈ url then
    match split ';' url with
    | part :: _ => .ok (trim part)
    -- `parts[0]`
    | [] => .error .arrayIndexOutOfBounds
  else .ok url

def dbNameFromUrl (url : List Char) : Except ConnectError (List Char) :=
  if acceptsURL url then do
    let shortUrl ← shortUrlOf url
    let dbName := trim (shortUrl.drop duckdbUrlStart.length)
    let dbName := if dbName = [] then memoryDb else dbName
    return if (memoryDb.drop 1).isPrefixOf dbName then ':' :: dbName else dbName
  else .error .sqlException

/-- `ParsedProps` -/
structure ParsedProps where
  shortUrl : List Char
  props : List (List Char × List Char)
  origPropNames : List (List Char)

/-- One round of the loop of `parsePropsFromUrl`. -/
def parseEntry (acc : List (List Char × List Char) × List (List Char)) (part : List Char) :
    Except ConnectError (List (List Char × List Char) × List (List Char)) :=
  let entry := trim part
  if entry = [] then .ok acc
  else match split '=' entry with
    | [key, value] =>
      .ok (LinkedMap.put (· == ·) acc.1 (trim key) (trim value), acc.2 ++ [trim key])
    | _ => .error .sqlException

def parsePropsFromUrl (url : List Char) : Except ConnectError ParsedProps :=
  if ';' ∈ url then
    match split ';' url with
    | part :: parts => do
      let (props, names) ← parts.foldlM parseEntry ([], [])
      return ⟨trim part, props, names⟩
    | [] => .error .arrayIndexOutOfBounds
  else .ok ⟨url, [], []⟩

/-! ## Options -/

/-- What the driver takes from elsewhere: `InitEnv`, `equalsIgnoreCase`, the names that
    `getPropertyInfo` lists, and the path by which the engine knows a database. -/
structure Env where
  init : InitEnv
  equalsIgnoreCase : List Char → List Char → Bool
  supportedOptions : List Char → Bool
  cacheKey : List Char → List Char

/-- `Properties`, with `toString` of the values. -/
abbrev Properties := List Char → Option (List Char)

def JDBC_PIN_DB : List Char := "jdbc_pin_db".toList
def JDBC_AUTO_COMMIT : List Char := "jdbc_auto_commit".toList
def JDBC_IGNORE_UNSUPPORTED_OPTIONS : List Char := "jdbc_ignore_unsupported_options".toList
def DUCKDB_READONLY_PROPERTY : List Char := "duckdb.read_only".toList
def DUCKDB_ACCESS_MODE_PROPERTY : List Char := "access_mode".toList
def DUCKDB_ACCESS_MODE_READ_ONLY : List Char := "READ_ONLY".toList
def SESSION_INIT_SQL_FILE_OPTION : List Char := "session_init_sql_file".toList
def SESSION_INIT_SQL_FILE_SHA256_OPTION : List Char := "session_init_sql_file_sha256".toList

/-- The value that `removeOption` and `getOption` return. -/
def getOption (props : Properties) (opt : List Char) : Option (List Char) :=
  (props opt).map trim

def remove (props : Properties) (opt : List Char) : Properties := Function.update props opt none

/-- `props.put` for the options of the url. -/
def putAll (props : Properties) (urlProps : List (List Char × List Char)) : Properties :=
  urlProps.foldl (fun props en => Function.update props en.1 (some en.2)) props

def setDefaultOptionValue (props : Properties) (opt value : List Char) : Properties :=
  if (props opt).isSome then props else Function.update props opt (some value)

section
variable (env : Env)

def isStringTruish (val : Option (List Char)) (defaultVal : Bool) : Except ConnectError Bool :=
  match val with
  | none => .ok defaultVal
  | some val =>
    let valLower := trim (env.init.toLowerCase val)
    if valLower = "true".toList ∨ valLower = "1".toList ∨ valLower = "yes".toList ∨
        valLower = "on".toList then .ok true
    else if valLower = "false".toList ∨ valLower = "0".toList ∨ valLower = "no".toList ∨
        valLower = "off".toList then .ok false
    else .error .sqlException

def removeUnsupportedOptions (props : Properties) : Except ConnectError Properties := do
  let ignore ← isStringTruish env (getOption props JDBC_IGNORE_UNSUPPORTED_OPTIONS) false
  let props := remove props JDBC_IGNORE_UNSUPPORTED_OPTIONS
  return if ignore then fun name => if env.supportedOptions name then props name else none
    else props

/-- `removeReadOnly`, without the result. -/
def removeReadOnly (props : Properties) : Except ConnectError Properties := do
  let readOnlyStr := getOption props DUCKDB_READONLY_PROPERTY
  let props := remove props DUCKDB_READONLY_PROPERTY
  let readOnly ← isStringTruish env readOnlyStr false
  match getOption props DUCKDB_ACCESS_MODE_PROPERTY with
  | none => return props
  | some accessMode =>
    let accessReadOnly := env.equalsIgnoreCase DUCKDB_ACCESS_MODE_READ_ONLY accessMode
    if readOnlyStr.isSome ∧ readOnly ≠ accessReadOnly then .error .sqlException
    else return props

/-- `pp.props.remove(opt)`, with the value. -/
def removeProp (props : List (List Char × List Char)) (opt : List Char) :
    Option (List Char × List (List Char × List Char)) :=
  (props.lookup opt).map fun value => (value, props.filter fun entry => entry.1 != opt)

/-- The option `opt` has to be number `i` and must not be there again. -/
def checkPlace (pp : ParsedProps) (i : ℕ) (opt : List Char) : Except ConnectError Unit :=
  if (pp.props.map Prod.fst)[i]? ≠ some opt then .error .sqlException
  else if (pp.origPropNames.drop (i + 1)).any (env.equalsIgnoreCase opt) then .error .sqlException
  else .ok ()

/-- `readSessionInitSQLFile`, with the options that are left in the url; `files` is what reading
    a path gives. -/
def readSessionInitSQLFile (pp : ParsedProps) (files : List Char → Option (List UInt8)) :
    Except ConnectError (Option SessionInitSQLFile × List (List Char × List Char)) :=
  match removeProp pp.props SESSION_INIT_SQL_FILE_OPTION with
  | none => .ok (none, pp.props)
  | some (filePathStr, props) => do
    checkPlace env pp 0 SESSION_INIT_SQL_FILE_OPTION
    match removeProp props SESSION_INIT_SQL_FILE_SHA256_OPTION with
    | none =>
      let sf ← SessionInit.readSessionInitSQLFile env.init [] (files filePathStr)
      return (some sf, props)
    | some (expectedSha256, props) =>
      checkPlace env pp 1 SESSION_INIT_SQL_FILE_SHA256_OPTION
      let sf ← SessionInit.readSessionInitSQLFile env.init expectedSha256 (files filePathStr)
      return (some sf, props)

end

/-! ## The start of `connect` -/

/-- A call of `connect`, and the files it finds. -/
structure Request where
  url : List Char
  info : Properties
  files : List Char → Option (List UInt8)

/-- What `connect` calls `newConnection` with.  `dbNameFromUrl` gives the name `dbName` for both
    urls. -/
structure Prepared where
  url : List Char
  shortUrl : List Char
  dbName : List Char
  names_url : dbNameFromUrl url = .ok dbName
  names_shortUrl : dbNameFromUrl shortUrl = .ok dbName
  pinDBOpt : Bool
  /-- nothing for `sf.isEmpty()` -/
  sf : Option SessionInitSQLFile

theorem rdropWhile_cons_of_neg {α : Type} {p : α → Bool} {a : α} (h : p a = false) (l : List α) :
    (a :: l).rdropWhile p = a :: l.rdropWhile p := by
  induction l using List.reverseRecOn with
  | nil => simp [List.rdropWhile_singleton, h]
  | append_singleton l x ih =>
    rw [← List.cons_append, List.rdropWhile_concat, List.rdropWhile_concat, ih]
    split <;> rfl

theorem rdropWhile_append_of_neg {α : Type} {p : α → Bool} {w : List α}
    (h : ∀ a ∈ w, p a = false) (l : List α) : (w ++ l).rdropWhile p = w ++ l.rdropWhile p := by
  induction w with
  | nil => rfl
  | cons a w ih =>
    rw [List.cons_append, rdropWhile_cons_of_neg (h a List.mem_cons_self), ih, List.cons_append]
    exact fun b hb => h b (List.mem_cons_of_mem a hb)

/-- No blank and no semicolon in it. -/
theorem duckdbUrlStart_chars : ∀ c ∈ duckdbUrlStart, decide (c.toNat ≤ 32) = false ∧ c ≠ ';' := by
  have hall : (duckdbUrlStart.all fun c => !decide (c.toNat ≤ 32) && c != ';') = true := by decide
  intro c hc
  simpa using List.all_eq_true.1 hall c hc

/-- Its end is trimmed. -/
theorem trim_start (rest : List Char) :
    trim (duckdbUrlStart ++ rest) =
      duckdbUrlStart ++ rest.rdropWhile fun c => decide (c.toNat ≤ 32) := by
  rw [trim, show duckdbUrlStart ++ rest = 'j' :: ("dbc:duckdb:".toList ++ rest) from rfl,
    List.dropWhile_cons_of_neg (by decide)]
  exact rdropWhile_append_of_neg (fun c hc => (duckdbUrlStart_chars c hc).1) rest

/-- A url with options: what is before them, and what `split` makes of it. -/
theorem url_split {url : List Char} (h : acceptsURL url = true) (hsemi : ';' ∈ url) :
    ∃ rest parts, ';' ∉ rest ∧ split ';' url = (duckdbUrlStart ++ rest) :: parts := by
  obtain ⟨front, back, rfl, hfront⟩ := List.eq_append_cons_of_mem hsemi
  obtain ⟨rest, rfl⟩ : duckdbUrlStart <+: front := by
    have hstart : duckdbUrlStart <+: front ++ ';' :: back := List.isPrefixOf_iff_prefix.1 h
    rcases List.prefix_or_prefix_of_prefix hstart (List.prefix_append front _) with hp | ⟨w, hw⟩
    · exact hp
    · cases w with
      | nil => exact ⟨[], by rw [← hw]; simp⟩
      | cons c w =>
        rw [← hw] at hstart
        have hc := (List.cons_prefix_cons.1 ((List.prefix_append_right_inj front).1 hstart)).1
        exact absurd hc (duckdbUrlStart_chars c (by rw [← hw]; simp)).2
  refine ⟨rest, (back.splitOn ';').rdropWhile List.isEmpty, by simp_all, ?_⟩
  rw [split, if_pos hsemi, List.splitOn_append_cons_self_of_not_mem hfront]
  exact rdropWhile_cons_of_neg rfl _

/-- The url without options names the same database. -/
theorem dbNameFromUrl_shortUrl {url : List Char} {pp : ParsedProps} (h : acceptsURL url = true)
    (hpp : parsePropsFromUrl url = .ok pp) : dbNameFromUrl pp.shortUrl = dbNameFromUrl url := by
  unfold parsePropsFromUrl at hpp
  by_cases hsemi : ';' ∈ url
  · obtain ⟨rest, parts, hrest, hsplit⟩ := url_split h hsemi
    rw [if_pos hsemi, hsplit] at hpp
    have hpp' : pp.shortUrl = trim (duckdbUrlStart ++ rest) := by
      dsimp only at hpp
      cases hfold : parts.foldlM parseEntry ([], []) with
      | error e =>
        rw [hfold] at hpp
        cases hpp
      | ok acc =>
        rw [hfold] at hpp
        cases hpp
        rfl
    have hshort : ';' ∉ trim (duckdbUrlStart ++ rest) := by
      rw [trim_start, List.mem_append, not_or]
      refine ⟨fun hc => (duckdbUrlStart_chars _ hc).2 rfl, fun hc => hrest ?_⟩
      exact (List.rdropWhile_prefix _ _).mem hc
    have hstart : acceptsURL (trim (duckdbUrlStart ++ rest)) = true := by
      rw [trim_start]
      exact List.isPrefixOf_iff_prefix.2 (List.prefix_append _ _)
    rw [hpp', dbNameFromUrl, dbNameFromUrl, if_pos hstart, if_pos h, shortUrlOf, shortUrlOf,
      if_neg hshort, if_pos hsemi, hsplit]
  · rw [if_neg hsemi] at hpp
    cases hpp
    rfl

/-- `connect` up to the native call of `newConnection`; nothing is returned for the url of another
    driver. -/
def prepare (env : Env) (r : Request) : Except ConnectError (Option Prepared) :=
  if haccepts : acceptsURL r.url = true then
    match hpp : parsePropsFromUrl r.url, hname : dbNameFromUrl r.url with
    | .error e, _ | _, .error e => .error e
    | .ok pp, .ok dbName => do
      let (sf, urlProps) ← readSessionInitSQLFile env pp r.files
      let props := putAll r.info urlProps
      let props ← removeUnsupportedOptions env props
      let props ← removeReadOnly env props
      let props := if ducklakeUrlStart.isPrefixOf pp.shortUrl then
        setDefaultOptionValue props JDBC_PIN_DB "true".toList else props
      let pinDBOpt ← isStringTruish env (getOption props JDBC_PIN_DB) false
      let _ ← isStringTruish env (getOption props JDBC_AUTO_COMMIT) true
      return some ⟨r.url, pp.shortUrl, dbName, hname,
        (dbNameFromUrl_shortUrl haccepts hpp).trans hname, pinDBOpt, sf⟩
  else .ok none

end DuckDBJava.Driver
