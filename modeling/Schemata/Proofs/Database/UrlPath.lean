import Schemata.Proofs.Database.Existence

/-!
# The database that a URL names

A URL of a target is put together from its parts, of which path, query and fragment may be absent.
The name of its database should be the path. It is found by cutting the text, at the first slash
behind the scheme and then at the first `?` or `#`; so where there is no path, a slash in the query
or in the fragment is taken for the one that a path begins with, and what follows it for the path.
-/
namespace Schemata

open ConnectionSettings (after?)

/-! ## URLs by their parts -/

structure TargetUrl where
  scheme : List Char
  authority : List Char
  path? : Option (List Char)
  query? : Option (List Char)
  fragment? : Option (List Char)
  scheme_ok : ¬ "://".toList <:+: scheme
  authority_ok : ∀ c ∈ authority, c ≠ '/' ∧ c ≠ '?' ∧ c ≠ '#'
  path_ok : ∀ path ∈ path?, ∀ c ∈ path, c ≠ '?' ∧ c ≠ '#'
  query_ok : ∀ query ∈ query?, '#' ∉ query

namespace TargetUrl

/-- A part behind the mark that it begins with, if it is there. -/
def marked (mark : Char) : Option (List Char) → List Char
  | none => []
  | some part => mark :: part

variable (u : TargetUrl)

/-- The query and the fragment. -/
def tail : List Char := marked '?' u.query? ++ marked '#' u.fragment?

def text : String :=
  String.ofList (u.scheme ++ ("://".toList ++ (u.authority ++ (marked '/' u.path? ++ u.tail))))

/-- The path, unless it is empty. -/
def databasePath? : Option String := (u.path?.filter (· ≠ [])).map String.ofList

/-- There is no path, but a slash behind the place for it, with something else than the end of its
part behind the slash. -/
def HasStrayPath : Prop :=
  u.path? = none ∧ ∃ before c behind,
    u.tail = before ++ '/' :: c :: behind ∧ '/' ∉ before ∧ c ≠ '?' ∧ c ≠ '#'

end TargetUrl

/-! ## Cutting the text -/

namespace ConnectionSettings

variable {cs before rest : List Char}

theorem after?_cons (pattern : List Char) (c : Char) (cs : List Char)
    (h : ¬ pattern <+: c :: cs) : after? pattern (c :: cs) = after? pattern cs := by
  rw [after?, if_neg (mt List.isPrefixOf_iff_prefix.mp h)]

theorem after?_append_self (pattern rest : List Char) :
    after? pattern (pattern ++ rest) = some rest := by
  rw [after?.eq_def, if_pos (List.isPrefixOf_iff_prefix.mpr (List.prefix_append _ _)),
    List.drop_left]

/-- The separator cannot begin within a scheme that it does not stand in, since no end of it is a
start of it. -/
theorem not_separator_prefix {scheme : List Char} (hne : scheme ≠ [])
    (h : ¬ "://".toList <:+: scheme) (rest : List Char) :
    ¬ "://".toList <+: scheme ++ ("://".toList ++ rest) := by
  have hchars : "://".toList = [':', '/', '/'] := rfl
  rw [hchars] at h ⊢
  intro hprefix
  -- one or two characters of the scheme would have to be followed by a colon that is a slash
  match scheme, hne with
  | [c], _ => simp at hprefix
  | [c, d], _ => simp at hprefix
  | c :: d :: e :: scheme, _ =>
    obtain ⟨rfl, rfl, rfl⟩ : ':' = c ∧ '/' = d ∧ '/' = e := by simpa using hprefix
    exact h (List.infix_append [] _ scheme)

theorem after?_scheme {scheme : List Char} (h : ¬ "://".toList <:+: scheme) (rest : List Char) :
    after? "://".toList (scheme ++ ("://".toList ++ rest)) = some rest := by
  induction scheme with
  | nil => exact after?_append_self _ rest
  | cons c scheme ih =>
    have hlater : ¬ "://".toList <:+: scheme := mt List.infix_cons h
    have hstart : ¬ "://".toList <+: c :: (scheme ++ ("://".toList ++ rest)) :=
      not_separator_prefix (List.cons_ne_nil c scheme) h rest
    rw [List.cons_append, after?_cons _ _ _ hstart, ih hlater]

theorem after?_slash (h : '/' ∉ before) (rest : List Char) :
    after? ['/'] (before ++ rest) = after? ['/'] rest := by
  induction before with
  | nil => rfl
  | cons c before ih =>
    obtain ⟨hc, hbefore⟩ := not_or.mp (mt List.mem_cons.mpr h)
    rw [List.cons_append, after?_cons, ih hbefore]
    rintro ⟨rest, hsplit⟩
    exact hc (List.cons.inj hsplit).1

theorem after?_slash_eq_some_iff :
    after? ['/'] cs = some rest ↔ ∃ before, cs = before ++ '/' :: rest ∧ '/' ∉ before := by
  constructor
  · intro h
    by_cases hslash : '/' ∈ cs
    · obtain ⟨before, more, rfl, hbefore⟩ := List.eq_append_cons_of_mem hslash
      have hmore : after? ['/'] ('/' :: more) = some more := after?_append_self ['/'] more
      rw [after?_slash hbefore, hmore] at h
      obtain rfl := Option.some.inj h
      exact ⟨before, rfl, hbefore⟩
    · have hnone := after?_slash hslash []
      rw [List.append_nil, h] at hnone
      cases hnone
  · rintro ⟨before, rfl, hbefore⟩
    rw [after?_slash hbefore]
    exact after?_append_self ['/'] rest

/-- The name at the start of a path. -/
def nameAt? (cs : List Char) : Option String :=
  let name := cs.takeWhile fun c => c ≠ '?' && c ≠ '#'
  if name.isEmpty then none else some (String.ofList name)

theorem nameAt?_append {name rest : List Char} (hname : ∀ c ∈ name, c ≠ '?' ∧ c ≠ '#')
    (hrest : ∀ c ∈ rest.head?, c = '?' ∨ c = '#') :
    nameAt? (name ++ rest) = (some name |>.filter (· ≠ [])).map String.ofList := by
  have hstop : ∀ c ∈ rest.head?, (c ≠ '?' && c ≠ '#') = false := by
    intro c hc
    rcases hrest c hc with rfl | rfl <;> rfl
  have htake : (name ++ rest).takeWhile (fun c => c ≠ '?' && c ≠ '#') = name :=
    Quoting.takeWhile_append_stop (by simpa using hname) hstop
  rw [nameAt?, htake]
  cases name <;> rfl

theorem nameAt?_eq_none_iff : nameAt? cs = none ↔ ∀ c ∈ cs.head?, c = '?' ∨ c = '#' := by
  cases cs with
  | nil => simp [nameAt?]
  | cons c cs =>
    have hnone : nameAt? (c :: cs) = none ↔ ¬ (c ≠ '?' ∧ c ≠ '#') := by
      by_cases hc : c ≠ '?' ∧ c ≠ '#'
      · simp [nameAt?, hc]
      · simp [nameAt?, hc]
    rw [hnone]
    simp only [List.head?_cons, Option.mem_some_iff, forall_eq']
    tauto

end ConnectionSettings

namespace TargetUrl

open ConnectionSettings

variable (u : TargetUrl)

theorem databaseName?_eq (explicit : Option Dialect) :
    (ConnectionSettings.mk u.text explicit).databaseName? =
      (after? ['/'] (marked '/' u.path? ++ u.tail)).bind nameAt? := by
  have hauthority : '/' ∉ u.authority := fun h => (u.authority_ok _ h).1 rfl
  have hscheme := after?_scheme u.scheme_ok (u.authority ++ (marked '/' u.path? ++ u.tail))
  rw [databaseName?, text, String.toList_ofList]
  show (after? "://".toList _).bind _ = _
  rw [hscheme, Option.bind_some]
  show (after? ['/'] _).bind nameAt? = _
  rw [after?_slash hauthority]

theorem head?_tail {c : Char} (h : c ∈ u.tail.head?) : c = '?' ∨ c = '#' := by
  rw [tail] at h
  cases hquery : u.query? with
  | some query =>
    rw [hquery] at h
    exact .inl (Option.some.inj h).symm
  | none =>
    rw [hquery] at h
    cases hfragment : u.fragment? with
    | some fragment =>
      rw [hfragment] at h
      exact .inr (Option.some.inj h).symm
    | none =>
      rw [hfragment] at h
      cases h

theorem databaseName?_of_path {path : List Char} (h : u.path? = some path)
    (explicit : Option Dialect) :
    (ConnectionSettings.mk u.text explicit).databaseName? = u.databasePath? := by
  rw [databaseName?_eq, h]
  show (after? ['/'] (['/'] ++ (path ++ u.tail))).bind nameAt? = _
  rw [after?_append_self, Option.bind_some,
    nameAt?_append (u.path_ok path h) fun _ => u.head?_tail, databasePath?, h]

theorem databaseName?_of_no_path (h : u.path? = none) (explicit : Option Dialect) :
    (ConnectionSettings.mk u.text explicit).databaseName? = none ↔ ¬ u.HasStrayPath := by
  have hname : (ConnectionSettings.mk u.text explicit).databaseName? =
      (after? ['/'] u.tail).bind nameAt? := by
    rw [databaseName?_eq, h]
    rfl
  rw [hname, Option.bind_eq_none_iff]
  constructor
  · -- the first slash is cut at, so no name may begin behind it
    rintro hnone ⟨-, before, c, behind, htail, hbefore, hc⟩
    have hstart := nameAt?_eq_none_iff.mp
      (hnone (c :: behind) (after?_slash_eq_some_iff.mpr ⟨before, htail, hbefore⟩)) c rfl
    exact hstart.elim hc.1 hc.2
  · intro hstray rest hrest
    obtain ⟨before, htail, hbefore⟩ := after?_slash_eq_some_iff.mp hrest
    refine nameAt?_eq_none_iff.mpr fun c hc => ?_
    obtain ⟨behind, rfl⟩ := List.head?_eq_some_iff.mp hc
    by_contra hne
    exact hstray ⟨h, before, c, behind, htail, hbefore, not_or.mp hne⟩

/-- The name found is the path, unless a slash behind the place for it is taken for its start. -/
theorem databaseName?_eq_databasePath?_iff (explicit : Option Dialect) :
    (ConnectionSettings.mk u.text explicit).databaseName? = u.databasePath? ↔
      ¬ u.HasStrayPath := by
  cases hpath : u.path? with
  | some path =>
    refine iff_of_true (u.databaseName?_of_path hpath explicit) fun hstray => ?_
    cases hpath.symm.trans hstray.1
  | none =>
    have hnone : u.databasePath? = none := by rw [databasePath?, hpath]; rfl
    rw [hnone]
    exact u.databaseName?_of_no_path hpath explicit

theorem databaseName?_eq_none_iff (explicit : Option Dialect) :
    (ConnectionSettings.mk u.text explicit).databaseName? = none ↔
      u.databasePath? = none ∧ ¬ u.HasStrayPath := by
  have hpath := u.databaseName?_eq_databasePath?_iff explicit
  constructor
  · intro hnone
    have hstray : ¬ u.HasStrayPath := fun h => (u.databaseName?_of_no_path h.1 explicit).mp hnone h
    exact ⟨(hpath.mpr hstray).symm.trans hnone, hstray⟩
  · rintro ⟨hnone, hstray⟩
    exact (hpath.mpr hstray).trans hnone

theorem databaseName?_eq_some {schema : String} (h : u.databasePath? = some schema)
    (explicit : Option Dialect) :
    (ConnectionSettings.mk u.text explicit).databaseName? = some schema := by
  have hstray : ¬ u.HasStrayPath := by
    rintro ⟨hpath, -⟩
    rw [databasePath?, hpath] at h
    cases h
  exact ((u.databaseName?_eq_databasePath?_iff explicit).mpr hstray).trans h

end TargetUrl

/-! ## The table in that database -/

namespace Database

open Dispatch

variable {σ : Type} {backend : Backend σ} {e : ConfigError}

/-- Neither the pool nor a connection finds fault with the configuration. -/
structure AcceptsConfiguration (backend : Backend σ) : Prop where
  acquire : ∀ s e, (backend.acquire s).1 ≠ .error (.configuration e)
  finish : ∀ c sql params s e, (backend.finish c sql params s).1 ≠ .error (.configuration e)

theorem memory_acceptsConfiguration : AcceptsConfiguration Memory.Servers.backend where
  acquire s e := by
    show s.acquire.1 ≠ _
    unfold Memory.Servers.acquire
    split <;> rintro ⟨⟩
  finish c sql params s e := by
    show (s.query c sql params).1 ≠ _
    rcases hrun : (s.catalog c).runText sql params with ⟨result, catalog⟩
    simp only [Memory.Servers.query, hrun]
    split
    · rintro ⟨⟩
    · cases result <;> rintro ⟨⟩

theorem AcceptsConfiguration.runOn (h : AcceptsConfiguration backend) (d : Dispatcher)
    (r : Request) (began : Nat) (c : ConnectionId) (lease : Option Lease) (w : World σ) :
    (Dispatch.runOn backend d r began c lease w).1 ≠ .error (.configuration e) := by
  unfold Dispatch.runOn awaitAnswer
  split
  · rintro ⟨⟩
  · exact h.finish c r.sql r.params _ e

theorem AcceptsConfiguration.execute (h : AcceptsConfiguration backend) (d : Dispatcher)
    (r : Request) (w : World σ) :
    (Dispatch.execute backend d w r).1 ≠ .error (.configuration e) := by
  rw [execute_eq_alone, alone]
  split
  · exact h.runOn d r _ _ _ _
  · unfold askPool runLeased
    split
    · rintro ⟨⟩
    · have hacquire := h.acquire w.resources e
      split
      · next hanswer =>
        rintro ⟨⟩
        rw [hanswer] at hacquire
        exact hacquire rfl
      · exact h.runOn d r _ _ _ _

/-- So a look for a table fails for the configuration only if it asks for nothing. -/
theorem tableExists_configuration_iff (h : AcceptsConfiguration backend) (db : Database)
    (table : String) (w : World σ) :
    (∃ e, (db.tableExists backend table w).1 = .error (.configuration e)) ↔
      ∃ e, db.probeParams table = .error e := by
  cases hparams : db.probeParams table with
  | error e =>
    rw [tableExists_error hparams]
    exact iff_of_true ⟨e, rfl⟩ ⟨e, rfl⟩
  | ok params =>
    refine iff_of_false ?_ nofun
    rintro ⟨e, he⟩
    have hexecute := h.execute (e := e) db.dispatcher
      { sql := db.dialect.grammar.tableExistsSql, params } w
    rw [tableExists_ok hparams] at he
    rcases hanswer : Dispatch.execute backend db.dispatcher w
      { sql := db.dialect.grammar.tableExistsSql, params } with ⟨fault | answer, w'⟩
    · rw [hanswer] at he hexecute
      cases he
      exact hexecute rfl
    · rw [hanswer] at he
      cases he

variable (settings : ConnectionSettings) (dispatcher : Dispatcher) (table : String)

theorem mysql_probeParams_none (h : settings.databaseName? = none) :
    probeParams ⟨settings, .mysql, dispatcher⟩ table = .error (.noDatabase settings.url) := by
  simp only [probeParams, h]

theorem mysql_probeParams_some {schema : String} (h : settings.databaseName? = some schema) :
    probeParams ⟨settings, .mysql, dispatcher⟩ table = .ok [.text schema, .text table] := by
  simp only [probeParams, h]

theorem mysql_unnamed_iff :
    (∃ e, probeParams ⟨settings, .mysql, dispatcher⟩ table = .error e) ↔
      settings.databaseName? = none := by
  cases hname : settings.databaseName? with
  | none => exact iff_of_true ⟨_, mysql_probeParams_none settings dispatcher table hname⟩ rfl
  | some schema =>
    rw [mysql_probeParams_some settings dispatcher table hname]
    exact iff_of_false nofun nofun

/-- All that is handed out is a query for the table in the schema. -/
def AsksOnly (schema table : String) (journal : Journal) : Prop :=
  ∀ query ∈ journal.statements, Query.wanted? query "table_schema" = some (.text schema) ∧
    Query.wanted? query "table_name" = some (.text table)

/-- With a database in its URL, MySQL is asked for the table in that schema. -/
theorem mysql_asksOnly {schema : String} (h : settings.databaseName? = some schema)
    (backend : Backend σ) (w : World σ) :
    let db : Database := ⟨settings, .mysql, dispatcher⟩
    let found := db.tableExists backend table w
    ∃ outcome journal, Exchange dispatcher
        { sql := db.dialect.grammar.tableExistsSql, params := [.text schema, .text table] }
        outcome journal ∧
      found.1 = outcome.map (!·.rows.isEmpty) ∧
      db.tableExists backend.journaled table (w.keeping []) =
        (found.1, found.2.keeping journal) ∧
      AsksOnly schema table journal := by
  intro db found
  obtain ⟨outcome, journal, hexchange, hresult, hjournal⟩ :=
    tableExists_journaled (mysql_probeParams_some settings dispatcher table h) backend w []
  refine ⟨outcome, journal, hexchange, hresult, hjournal, ?_⟩
  intro query hquery
  obtain rfl := List.mem_singleton.mp (hexchange.statements_prefix.subset hquery)
  simp only [Query.wanted?, comparisons_mysql]
  exact ⟨rfl, rfl⟩

end Database

/-- **The database of a URL is its path, unless a slash further behind is taken for the start of
one.** Apart from that, MySQL is asked for a table in the schema that the path names, and without
a path it is not asked at all: that is the only failure that is about the configuration, as long
as neither the pool nor a connection reports one. -/
theorem TargetUrl.database_is_path_iff (u : TargetUrl) (explicit : Option Dialect) :
    ((ConnectionSettings.mk u.text explicit).databaseName? = u.databasePath? ↔
      ¬ u.HasStrayPath) ∧
    ∀ {σ : Type} (backend : Dispatch.Backend σ), Database.AcceptsConfiguration backend →
      ∀ (dispatcher : Dispatch.Dispatcher) (table : String) (w : Dispatch.World σ),
        let db : Database := ⟨⟨u.text, explicit⟩, .mysql, dispatcher⟩
        let found := db.tableExists backend table w
        ((∃ e, found.1 = .error (.configuration e)) ↔
          u.databasePath? = none ∧ ¬ u.HasStrayPath) ∧
        match u.databasePath? with
        | none => ¬ u.HasStrayPath → found = (.error (.configuration (.noDatabase u.text)), w)
        | some schema => ∃ outcome journal, Dispatch.Exchange dispatcher
            { sql := db.dialect.grammar.tableExistsSql, params := [.text schema, .text table] }
            outcome journal ∧
          found.1 = outcome.map (!·.rows.isEmpty) ∧
          db.tableExists backend.journaled table (w.keeping []) =
            (found.1, found.2.keeping journal) ∧
          Database.AsksOnly schema table journal := by
  refine ⟨u.databaseName?_eq_databasePath?_iff explicit, ?_⟩
  intro σ backend hbackend dispatcher table w db found
  refine ⟨?_, ?_⟩
  · exact (Database.tableExists_configuration_iff hbackend db table w).trans
      ((Database.mysql_unnamed_iff _ dispatcher table).trans (u.databaseName?_eq_none_iff explicit))
  · cases hpath : u.databasePath? with
    | none =>
      intro hstray
      have hnone := (u.databaseName?_eq_none_iff explicit).mpr ⟨hpath, hstray⟩
      exact Database.tableExists_error
        (Database.mysql_probeParams_none _ dispatcher table hnone) backend w
    | some schema =>
      exact Database.mysql_asksOnly _ dispatcher table (u.databaseName?_eq_some hpath explicit)
        backend w

/-- A path is found before a query with slashes, and a URL that ends with its host has none. -/
theorem TargetUrl.shop_is_the_database :
    ∃ shop hostOnly : TargetUrl,
      shop.text = "mysql://root@localhost/shop?ssl-ca=/etc/ca.pem" ∧
      hostOnly.text = "mysql://root@localhost" ∧
      (ConnectionSettings.mk shop.text none).databaseName? = some "shop" ∧
      ∀ w, Database.tableExists Memory.Servers.backend
          ⟨⟨hostOnly.text, none⟩, .mysql, ⟨.pool, false⟩⟩ "t" w =
        (.error (.configuration (.noDatabase hostOnly.text)), w) := by
  let shop : TargetUrl :=
    { scheme := "mysql".toList
      authority := "root@localhost".toList
      path? := some "shop".toList
      query? := some "ssl-ca=/etc/ca.pem".toList
      fragment? := none
      scheme_ok := by decide
      authority_ok := by simp
      path_ok := by simp
      query_ok := by simp }
  let hostOnly : TargetUrl :=
    { shop with path? := none, query? := none, path_ok := by simp, query_ok := by simp }
  have hshop : ¬ shop.HasStrayPath := by
    rintro ⟨hpath, -⟩
    cases hpath
  have hhost : ¬ hostOnly.HasStrayPath := by
    rintro ⟨-, before, c, behind, htail, -⟩
    cases before <;> cases htail
  obtain ⟨hname, -⟩ := shop.database_is_path_iff none
  obtain ⟨-, hfound⟩ := hostOnly.database_is_path_iff none
  refine ⟨shop, hostOnly, by decide, by decide, hname.mpr hshop, fun w => ?_⟩
  exact (hfound Memory.Servers.backend Database.memory_acceptsConfiguration ⟨.pool, false⟩ "t" w).2
    hhost

/-- Without a path, the file that a query names is taken for the database. -/
theorem TargetUrl.query_taken_for_path :
    ∃ u : TargetUrl, u.text = "mysql://localhost?ssl-ca=/etc/ca.pem" ∧
      u.databasePath? = none ∧
      (ConnectionSettings.mk u.text none).databaseName? = some "etc/ca.pem" ∧
      Database.probeParams ⟨⟨u.text, none⟩, .mysql, ⟨.pool, false⟩⟩ "t" =
        .ok [.text "etc/ca.pem", .text "t"] := by
  let u : TargetUrl :=
    { scheme := "mysql".toList
      authority := "localhost".toList
      path? := none
      query? := some "ssl-ca=/etc/ca.pem".toList
      fragment? := none
      scheme_ok := by decide
      authority_ok := by simp
      path_ok := by simp
      query_ok := by simp }
  have hname : (ConnectionSettings.mk u.text none).databaseName? = some "etc/ca.pem" := by
    decide +kernel
  exact ⟨u, by decide, rfl, hname, Database.mysql_probeParams_some _ _ "t" hname⟩

end Schemata
