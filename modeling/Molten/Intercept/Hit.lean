import Mathlib.Data.List.TakeWhile
import Mathlib.Logic.Function.Basic
import Molten.Data.Outline

namespace Molten.Intercept.Hit

/-! The functions that are intercepted: two tables, and the lookup in them. -/

inductive CaptureFunc
  | guzzleRequestCapture
  | defaultCapture
  deriving DecidableEq, Repr

inductive RecordFunc
  | pdoStatementRecord
  | pdoRecord
  | mysqliConnectRecord
  | mysqliRealConnectRecord
  | mysqliQueryRecord
  | mysqliStmtExeProceduralRecord
  | mysqliStmtPrepareProceduralRecord
  | mysqliConstructRecord
  | mysqliOoQueryRecord
  | mysqliCommonRecord
  | mysqliStmtExeOoRecord
  | curlMultiAddHandleRecord
  | curlMultiRemoveHandleRecord
  | redisRecord
  | memcachedAddServerRecord
  | memcachedAddServersRecord
  | memcachedCommonRecord
  | mongodbRecord
  | mongodbServerRecord
  | guzzleRequestRecord
  | esRequestRecord
  | defaultEsRecord
  deriving DecidableEq, Repr

structure InterceptorEle where
  keyword : String
  capture : Option CaptureFunc
  record : RecordFunc
  deriving DecidableEq, Repr

/-- `elements` and `tags` of `mo_interceptor_t`.  Of a tag only that it is there
is ever looked at. -/
structure Tables where
  elements : String → Option InterceptorEle
  tags : String → Bool

/-- What `mo_intercept_ctor` adds to the tables.  Outside of literals `#` leaves
backslashes as they are, so that two of them in a name stand for one. -/
inductive Registration
  | ele (element : InterceptorEle)
  | tag (name : String)
  deriving DecidableEq, Repr

def initInterceptorEle (nk : String) (capture : Option CaptureFunc)
    (record : RecordFunc) : Registration :=
  .ele ⟨nk, capture, record⟩

def initInterceptorEleTag (nk : String) (record : RecordFunc) :
    List Registration :=
  [initInterceptorEle nk none record, .tag nk]

def pdo : List Registration :=
  [.tag "PDO",
    .tag "PDOStatement",
    initInterceptorEle "PDOStatement@execute" none .pdoStatementRecord,
    initInterceptorEle "PDO@exec" none .pdoRecord,
    initInterceptorEle "PDO@query" none .pdoRecord,
    initInterceptorEle "PDO@commit" none .pdoRecord,
    initInterceptorEle "PDO@prepare" none .pdoRecord]

def mysqli : List Registration :=
  initInterceptorEleTag "mysqli_connect" .mysqliConnectRecord ++
  initInterceptorEleTag "mysqli_real_connect" .mysqliRealConnectRecord ++
  initInterceptorEleTag "mysqli_query" .mysqliQueryRecord ++
  initInterceptorEleTag "mysqli_prepare" .mysqliQueryRecord ++
  initInterceptorEleTag "mysqli_stmt_execute"
    .mysqliStmtExeProceduralRecord ++
  initInterceptorEleTag "mysqli_stmt_prepare"
    .mysqliStmtPrepareProceduralRecord ++
  [.tag "mysqli",
    initInterceptorEle "mysqli@__construct" none .mysqliConstructRecord,
    initInterceptorEle "mysqli@mysqli" none .mysqliConstructRecord,
    initInterceptorEle "mysqli@real_connect" none .mysqliConstructRecord,
    initInterceptorEle "mysqli@query" none .mysqliOoQueryRecord,
    initInterceptorEle "mysqli@prepare" none .mysqliOoQueryRecord,
    initInterceptorEle "mysqli@commit" none .mysqliCommonRecord,
    .tag "mysqli_stmt",
    initInterceptorEle "mysqli_stmt@execute" none .mysqliStmtExeOoRecord,
    initInterceptorEle "mysqli_stmt@prepare" none .mysqliStmtExeOoRecord]

def curl : List Registration :=
  initInterceptorEleTag "curl_multi_add_handle" .curlMultiAddHandleRecord ++
  initInterceptorEleTag "curl_multi_remove_handle"
    .curlMultiRemoveHandleRecord

def redisKeys : List String :=
  ["Redis@connect", "Redis@open", "Redis@pconnect", "Redis@popen",
   "Redis@auth", "Redis@flushAll", "Redis@flushDb", "Redis@save",
   "Redis@append", "Redis@bitCount", "Redis@bitOp", "Redis@decr",
   "Redis@decrBy", "Redis@get", "Redis@getBit", "Redis@getRange",
   "Redis@getSet", "Redis@incr", "Redis@incrBy", "Redis@incrByFloat",
   "Redis@mGet", "Redis@getMultiple", "Redis@mSet", "Redis@mSetNx",
   "Redis@set", "Redis@setBit", "Redis@setEx", "Redis@pSetEx", "Redis@setNx",
   "Redis@setRange", "Redis@del", "Redis@delete", "Redis@dump", "Redis@exists",
   "Redis@keys", "Redis@getKeys", "Redis@scan", "Redis@migrate", "Redis@move",
   "Redis@persist", "Redis@sort"]

def redis : List Registration :=
  [.tag "Redis"] ++
    redisKeys.map fun k => initInterceptorEle k none .redisRecord

def memcachedKeys : List String :=
  ["Memcached@add", "Memcached@addByKey", "Memcached@append",
   "Memcached@appendByKey", "Memcached@cas", "Memcached@casByKey",
   "Memcached@decrement", "Memcached@decrementByKey", "Memcached@delete",
   "Memcached@deleteByKey", "Memcached@deleteMulti",
   "Memcached@deleteMultiByKey", "Memcached@fetch", "Memcached@fetchAll",
   "Memcached@flush", "Memcached@get", "Memcached@getAllKeys",
   "Memcached@getByKey", "Memcached@getDelayed", "Memcached@getDelayedByKey",
   "Memcached@increment", "Memcached@incrementByKey", "Memcached@prepend",
   "Memcached@prependByKey", "Memcached@replace", "Memcached@replaceByKey",
   "Memcached@set", "Memcached@setByKey", "Memcached@setMulti",
   "Memcached@setMultiByKey", "Memcached@touch", "Memcached@touchByKey"]

def memcached : List Registration :=
  [.tag "Memcached",
    initInterceptorEle "Memcached@addServer" none .memcachedAddServerRecord,
    initInterceptorEle "Memcached@addServers" none
      .memcachedAddServersRecord] ++
    memcachedKeys.map fun k =>
      initInterceptorEle k none .memcachedCommonRecord

def mongodb : List Registration :=
  [.tag "MongoDB\\Driver\\Manager",
    initInterceptorEle "MongoDB\\Driver\\Manager@__construct"
      none .mongodbRecord,
    initInterceptorEle "MongoDB\\Driver\\Manager@executeBulkWrite"
      none .mongodbRecord,
    initInterceptorEle "MongoDB\\Driver\\Manager@executeCommand"
      none .mongodbRecord,
    initInterceptorEle "MongoDB\\Driver\\Manager@executeQuery"
      none .mongodbRecord,
    .tag "MongoDB\\Driver\\Server",
    initInterceptorEle "MongoDB\\Driver\\Server@executeBulkWrite"
      none .mongodbServerRecord,
    initInterceptorEle "MongoDB\\Driver\\Server@executeCommand"
      none .mongodbServerRecord,
    initInterceptorEle "MongoDB\\Driver\\Server@executeQuery"
      none .mongodbServerRecord]

def guzzle : List Registration :=
  [.tag "GuzzleHttp\\Client",
    initInterceptorEle "GuzzleHttp\\Client@request"
      (some .guzzleRequestCapture) .guzzleRequestRecord]

def elasticsearch : List Registration :=
  [.tag "Elasticsearch\\Client",
    initInterceptorEle "Elasticsearch\\Client@index"
      (some .defaultCapture) .esRequestRecord,
    initInterceptorEle "Elasticsearch\\Client@get"
      (some .defaultCapture) .esRequestRecord,
    initInterceptorEle "Elasticsearch\\Client@search"
      (some .defaultCapture) .esRequestRecord,
    initInterceptorEle "Elasticsearch\\Client@delete"
      (some .defaultCapture) .esRequestRecord,
    .tag "Elasticsearch\\Namespaces\\IndicesNamespace",
    initInterceptorEle "Elasticsearch\\Namespaces\\IndicesNamespace@delete"
      (some .defaultCapture) .defaultEsRecord,
    initInterceptorEle "Elasticsearch\\Namespaces\\IndicesNamespace@create"
      (some .defaultCapture) .defaultEsRecord]

/-- The registrations of `mo_intercept_ctor`, with the names of the extensions
that are loaded in lower case. -/
def registrations (extensionLoaded : String → Bool) : List Registration :=
  (if extensionLoaded "pdo" then pdo else []) ++
  (if extensionLoaded "mysqli" then mysqli else []) ++
  (if extensionLoaded "curl" then curl else []) ++
  (if extensionLoaded "redis" then redis else []) ++
  (if extensionLoaded "memcached" then memcached else []) ++
  (if extensionLoaded "mongodb" then mongodb else []) ++
  guzzle ++ elasticsearch

def Tables.empty : Tables := ⟨fun _ => none, fun _ => false⟩

def Tables.register (tables : Tables) : Registration → Tables
  | .ele element =>
      { tables with
        elements :=
          Function.update tables.elements element.keyword (some element) }
  | .tag name => { tables with tags := Function.update tables.tags name true }

def moInterceptCtor (extensionLoaded : String → Bool) : Tables :=
  (registrations extensionLoaded).foldl Tables.register .empty

/-! The lookup. -/

/-- `mo_intercept_hit`: the element where it returns 1, and no result where it
reads behind a null pointer. -/
def moInterceptHit (tables : Tables) (className functionName : Option String) :
    Option (Option InterceptorEle) :=
  match className, functionName with
  | some className, functionName =>
      if tables.tags className then
        match functionName with
        | some functionName =>
            some (tables.elements (className ++ "@" ++ functionName))
        | none => none
      else some none
  | none, some functionName =>
      if tables.tags functionName then some (tables.elements functionName)
      else some none
  | none, none => some none

/-! What it is to find. -/

/-- The key under which a function is registered. -/
def registeredKey (className : Option String) (functionName : String) :
    String :=
  match className with
  | some className => className ++ "@" ++ functionName
  | none => functionName

/-- The lookup reads no null pointer and finds what is registered. -/
def Finds (tables : Tables) (className functionName : Option String) : Prop :=
  moInterceptHit tables className functionName =
    some (functionName.bind fun functionName =>
      tables.elements (registeredKey className functionName))

/-- No code without a name runs in a class that is a tag, and no function has
the key of a method for its name. -/
def Named (tables : Tables) : Option String → Option String → Prop
  | some className, none => tables.tags className = false
  | none, some functionName =>
      '@' ∈ functionName.toList → tables.elements functionName = none
  | _, _ => True

/-! The registrations, as names. -/

def Registration.keyword? : Registration → Option String
  | .ele element => some element.keyword
  | .tag _ => none

def Registration.tag? : Registration → Option String
  | .ele _ => none
  | .tag name => some name

def keywords (registered : List Registration) : List String :=
  registered.filterMap Registration.keyword?

def tagNames (registered : List Registration) : List String :=
  registered.filterMap Registration.tag?

/-- The part of a keyword that is looked up first. -/
def tagOf (keyword : String) : String :=
  String.ofList (keyword.toList.takeWhile (· != '@'))

/-- Every keyword has its tag, and can be split in one way only. -/
structure Covered (registered : List Registration) : Prop where
  tagged : ∀ keyword ∈ keywords registered, tagOf keyword ∈ tagNames registered
  split : ∀ keyword ∈ keywords registered, keyword.toList.count '@' ≤ 1
  plain : ∀ name ∈ tagNames registered, '@' ∉ name.toList

theorem covered_nil : Covered [] := ⟨nofun, nofun, nofun⟩

theorem Covered.append {first second : List Registration}
    (hfirst : Covered first) (hsecond : Covered second) :
    Covered (first ++ second) := by
  have keywords_append : keywords (first ++ second) =
      keywords first ++ keywords second := List.filterMap_append
  have tagNames_append : tagNames (first ++ second) =
      tagNames first ++ tagNames second := List.filterMap_append
  constructor
  · intro keyword member
    rw [keywords_append, List.mem_append] at member
    rw [tagNames_append, List.mem_append]
    exact member.imp (hfirst.tagged keyword) (hsecond.tagged keyword)
  · intro keyword member
    rw [keywords_append, List.mem_append] at member
    exact member.elim (hfirst.split keyword) (hsecond.split keyword)
  · intro name member
    rw [tagNames_append, List.mem_append] at member
    exact member.elim (hfirst.plain name) (hsecond.plain name)

theorem Covered.ite {registered : List Registration}
    (covered : Covered registered) (loaded : Bool) :
    Covered (if loaded then registered else []) := by
  cases loaded with
  | true => exact covered
  | false => exact covered_nil

theorem covered_pdo : Covered pdo := ⟨by decide, by decide, by decide⟩

theorem covered_mysqli : Covered mysqli := ⟨by decide, by decide, by decide⟩

theorem covered_curl : Covered curl := ⟨by decide, by decide, by decide⟩

theorem covered_redis : Covered redis := ⟨by decide, by decide, by decide⟩

theorem covered_memcached : Covered memcached :=
  ⟨by decide, by decide, by decide⟩

theorem covered_mongodb : Covered mongodb := ⟨by decide, by decide, by decide⟩

theorem covered_guzzle : Covered guzzle := ⟨by decide, by decide, by decide⟩

theorem covered_elasticsearch : Covered elasticsearch :=
  ⟨by decide, by decide, by decide⟩

theorem covered_registrations (extensionLoaded : String → Bool) :
    Covered (registrations extensionLoaded) :=
  (((((((covered_pdo.ite _).append (covered_mysqli.ite _)).append
    (covered_curl.ite _)).append (covered_redis.ite _)).append
    (covered_memcached.ite _)).append (covered_mongodb.ite _)).append
    covered_guzzle).append covered_elasticsearch

/-! The tables. -/

theorem tags_foldl (registered : List Registration) (tables : Tables)
    (name : String) :
    (registered.foldl Tables.register tables).tags name = true ↔
      tables.tags name = true ∨ name ∈ tagNames registered := by
  induction registered generalizing tables with
  | nil => simp [tagNames]
  | cons registration registered induction =>
      rw [List.foldl_cons, induction]
      cases registration with
      | ele element => exact Iff.rfl
      | tag other =>
          by_cases same : name = other
          · simp [Tables.register, tagNames, Registration.tag?, same]
          · simp [Tables.register, tagNames, Registration.tag?, same]

theorem mem_keywords_of_foldl {registered : List Registration}
    {tables : Tables} {keyword : String}
    (found : (registered.foldl Tables.register tables).elements keyword ≠
      none) :
    tables.elements keyword ≠ none ∨ keyword ∈ keywords registered := by
  induction registered generalizing tables with
  | nil => exact Or.inl found
  | cons registration registered induction =>
      rw [List.foldl_cons] at found
      cases registration with
      | tag name =>
          rcases induction found with before | behind
          · exact Or.inl before
          · exact Or.inr behind
      | ele element =>
          rcases induction found with before | behind
          · by_cases same : keyword = element.keyword
            · exact Or.inr (same ▸ List.mem_cons_self)
            · apply Or.inl
              simpa [Tables.register, same] using before
          · exact Or.inr (List.mem_cons_of_mem _ behind)

section Tables

variable {extensionLoaded : String → Bool}

theorem tags_iff {name : String} :
    (moInterceptCtor extensionLoaded).tags name = true ↔
      name ∈ tagNames (registrations extensionLoaded) := by
  rw [moInterceptCtor, tags_foldl]
  simp [Tables.empty]

theorem mem_keywords {keyword : String}
    (found : (moInterceptCtor extensionLoaded).elements keyword ≠ none) :
    keyword ∈ keywords (registrations extensionLoaded) := by
  rcases mem_keywords_of_foldl found with before | member
  · exact absurd rfl before
  · exact member

theorem tagOf_key {className functionName : String}
    (split : (className ++ "@" ++ functionName).toList.count '@' ≤ 1) :
    tagOf (className ++ "@" ++ functionName) = className := by
  have chars : (className ++ "@" ++ functionName).toList =
      className.toList ++ '@' :: functionName.toList := by simp
  rw [chars, List.count_append, List.count_cons_self] at split
  have plain : ∀ c ∈ className.toList, (c != '@') = true := by
    intro c member
    apply bne_iff_ne.mpr
    intro same
    have positive := List.count_pos_iff.mpr (same ▸ member)
    omega
  rw [tagOf, chars, List.takeWhile_append_of_pos plain]
  simp

theorem tagOf_of_plain {name : String} (plain : '@' ∉ name.toList) :
    tagOf name = name := by
  have whole : name.toList.takeWhile (· != '@') = name.toList := by
    apply List.takeWhile_eq_self_iff.mpr
    intro c member
    exact bne_iff_ne.mpr fun same => plain (same ▸ member)
  rw [tagOf, whole, String.ofList_toList]

/-- The method of a class that is no tag is not registered. -/
theorem elements_of_not_tag {className : String}
    (absent : (moInterceptCtor extensionLoaded).tags className = false)
    (functionName : String) :
    (moInterceptCtor extensionLoaded).elements
      (className ++ "@" ++ functionName) = none := by
  have covered := covered_registrations extensionLoaded
  by_contra found
  have member := mem_keywords found
  have tagged := covered.tagged _ member
  rw [tagOf_key (covered.split _ member), ← tags_iff, absent] at tagged
  cases tagged

/-- A function that is no tag is not registered, unless it has the key of a
method. -/
theorem plain_elements_of_not_tag {functionName : String}
    (absent : (moInterceptCtor extensionLoaded).tags functionName = false)
    (plain : '@' ∉ functionName.toList) :
    (moInterceptCtor extensionLoaded).elements functionName = none := by
  have covered := covered_registrations extensionLoaded
  by_contra found
  have tagged := covered.tagged _ (mem_keywords found)
  rw [tagOf_of_plain plain, ← tags_iff, absent] at tagged
  cases tagged

theorem not_tag_of_key {functionName : String}
    (key : '@' ∈ functionName.toList) :
    (moInterceptCtor extensionLoaded).tags functionName = false := by
  apply Bool.eq_false_iff.mpr
  intro tagged
  exact (covered_registrations extensionLoaded).plain functionName
    (tags_iff.mp tagged) key

theorem finds_method (className functionName : String) :
    Finds (moInterceptCtor extensionLoaded) (some className)
      (some functionName) := by
  rw [Finds, moInterceptHit]
  cases tagged : (moInterceptCtor extensionLoaded).tags className with
  | true => rfl
  | false => exact congrArg some (elements_of_not_tag tagged functionName).symm

theorem finds_function_iff (functionName : String) :
    Finds (moInterceptCtor extensionLoaded) none (some functionName) ↔
      ('@' ∈ functionName.toList →
        (moInterceptCtor extensionLoaded).elements functionName = none) := by
  rw [Finds, moInterceptHit]
  by_cases key : '@' ∈ functionName.toList
  · rw [not_tag_of_key key]
    simp [registeredKey, key, eq_comm]
  · cases tagged : (moInterceptCtor extensionLoaded).tags functionName with
    | true => simp [registeredKey, key]
    | false =>
        simp [registeredKey, key, plain_elements_of_not_tag tagged key]

end Tables

/-- Under every set of extensions and for every two names the lookup finds what
is registered, just when no code without a name runs in a class that is a tag
and no function is named like the key of a method. -/
theorem hit_finds_iff (extensionLoaded : String → Bool)
    (className functionName : Option String) :
    Finds (moInterceptCtor extensionLoaded) className functionName ↔
      Named (moInterceptCtor extensionLoaded) className functionName := by
  cases className with
  | none =>
      cases functionName with
      | none => simp [Finds, Named, moInterceptHit]
      | some functionName => exact finds_function_iff functionName
  | some className =>
      cases functionName with
      | none => simp [Finds, Named, moInterceptHit]
      | some functionName =>
          exact iff_of_true (finds_method className functionName) trivial

/-- A file that is included by a method of the guzzle client. -/
theorem not_finds_included_file :
    ¬ Finds (moInterceptCtor fun _ => false) (some "GuzzleHttp\\Client")
      none := by
  have tagged : (moInterceptCtor fun _ => false).tags "GuzzleHttp\\Client" =
      true := tags_iff.mpr (by decide)
  simp [Finds, moInterceptHit, tagged]

end Molten.Intercept.Hit
