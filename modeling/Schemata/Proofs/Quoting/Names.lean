import Mathlib.Data.List.Basic
import Schemata.Proofs.Compile.Inversion
import Schemata.Proofs.Quoting.Statements

/-!
# The table that a statement addresses

A written name is decoded with the doubling lexer: it is cut at the dots outside quotes, and a
part is a quoted identifier or a bare `*`. In a statement the name of the table stands behind one
of a few phrases and ends at a blank outside quotes, so it can be read there without knowing what
the statement goes on to say. Whatever the name holds, its segments come back.
-/
namespace Schemata.Quoting

open Grammar

/-! ## Names -/

/-- The segment that a part of a written name stands for. -/
def segment? : List Piece → Option String
  | [.token ⟨.identifier, name⟩] => some name
  | [.bare '*'] => some "*"
  | _ => none

/-- The segments of a name, cut at the dots outside quotes. -/
def segments? (ps : List Piece) : Option (List String) := (ps.splitOn (.bare '.')).mapM segment?

def segmentsOf (q : Char) (s : String) : Option (List String) := (read q s).bind segments?

/-- What a segment reads as. -/
def segmentPieces (n : String) : List Piece :=
  if n = "*" then [.bare '*'] else [.token ⟨.identifier, n⟩]

def namePieces (n : String) : List Piece :=
  [Piece.bare '.'].intercalate ((Text.splitAt '.' n).map segmentPieces)

variable {q : Char} {n : String} {ps : List Piece}

theorem segment?_segmentPieces (n : String) : segment? (segmentPieces n) = some n := by
  unfold segmentPieces
  split
  · next h =>
    subst h
    rfl
  · rfl

theorem read_segment (hq : IsQuote q) (n : String) :
    read q (Identifier.segment q n) = some (segmentPieces n) := by
  unfold Identifier.segment segmentPieces
  split
  · next h =>
    subst h
    exact read_bare hq (by decide)
  · exact read_quote hq .identifier n

/-- Texts that have readings, with dots between them. -/
theorem read_dotted (hq : IsQuote q) {f : String → String} {g : String → List Piece}
    (h : ∀ n, read q (f n) = some (g n)) (ns : List String) :
    read q (".".intercalate (ns.map f)) = some ([Piece.bare '.'].intercalate (ns.map g)) := by
  induction ns with
  | nil => rfl
  | cons n ns ih =>
    cases ns with
    | nil => simpa using h n
    | cons m ms =>
      have hrest := read_bare_append hq (p := ".") (by decide) ih
      have hjoin := read_append hq (h n) hrest (leads_append (by decide) (by decide))
      simpa [List.intercalate_cons_cons, String.append_assoc] using hjoin

theorem read_qualified (hq : IsQuote q) (n : String) :
    read q (Identifier.qualified q n) = some (namePieces n) :=
  read_dotted hq (read_segment hq) _

/-- Outside quotes a name has dots and stars only. -/
theorem bare_of_mem_namePieces {c : Char} (h : Piece.bare c ∈ namePieces n) : c = '.' ∨ c = '*' := by
  unfold namePieces at h
  generalize Text.splitAt '.' n = ns at h
  induction ns with
  | nil => exact absurd h List.not_mem_nil
  | cons m ms ih =>
    have hsegment : Piece.bare c ∈ segmentPieces m → c = '*' := by
      unfold segmentPieces
      split <;> simp
    cases ms with
    | nil => exact .inr (hsegment (by simpa using h))
    | cons k ks =>
      rw [List.map_cons, List.map_cons, List.intercalate_cons_cons, List.mem_append,
        List.mem_append, List.mem_singleton, Piece.bare.injEq] at h
      rcases h with (h | h) | h
      · exact .inr (hsegment h)
      · exact .inl h
      · exact ih h

theorem segments?_namePieces (n : String) : segments? (namePieces n) = some (Text.splitAt '.' n) := by
  have hdot : ∀ l ∈ (Text.splitAt '.' n).map segmentPieces, Piece.bare '.' ∉ l := by
    intro l hl
    obtain ⟨m, -, rfl⟩ := List.mem_map.mp hl
    unfold segmentPieces
    split <;> simp
  have hne : (Text.splitAt '.' n).map segmentPieces ≠ [] := by simp [Text.splitAt]
  have hsegments : segment? ∘ segmentPieces = fun n => pure n := funext segment?_segmentPieces
  rw [segments?, namePieces, List.splitOn_intercalate _ hdot hne, List.mapM_map, hsegments,
    List.mapM_pure, List.map_id']
  rfl

/-- Decoding a written name gives back its dotted segments. -/
theorem segmentsOf_qualified (hq : IsQuote q) (n : String) :
    segmentsOf q (Identifier.qualified q n) = some (Text.splitAt '.' n) := by
  rw [segmentsOf, read_qualified hq, Option.bind_some, segments?_namePieces]

/-- The last segment of a name is the name where it has no dot, and less than it where it has. -/
theorem getLast?_splitAt_eq_some_iff (n : String) :
    (Text.splitAt '.' n).getLast? = some n ↔ '.' ∉ n.toList := by
  constructor
  · intro hlast hdot
    -- what stands behind the last dot is shorter than the name
    obtain ⟨before, behind, hsplit, hbehind⟩ : ∃ before behind, n.toList = before ++ '.' :: behind ∧
        '.' ∉ behind := by
      obtain ⟨as, bs, hreverse, has⟩ := List.eq_append_cons_of_mem (List.mem_reverse.mpr hdot)
      refine ⟨bs.reverse, as.reverse, ?_, mt List.mem_reverse.mp has⟩
      rw [← n.toList.reverse_reverse, hreverse, List.reverse_append, List.reverse_cons,
        List.append_assoc, List.singleton_append]
    rw [Text.splitAt, hsplit, List.splitOn_append_cons_self, List.splitOn_eq_singleton hbehind,
      List.map_append, List.map_singleton, List.getLast?_concat, Option.some.injEq] at hlast
    have hlength := congrArg (·.toList.length) hlast
    simp only [String.toList_ofList, hsplit, List.length_append, List.length_cons] at hlength
    omega
  · intro h
    rw [Text.splitAt, List.splitOn_eq_singleton h, List.map_singleton, List.getLast?_singleton,
      String.ofList_toList]

/-! ## Statements -/

/-- What a table stands behind; the third phrase is tried before the fourth, which begins it. -/
def tablePhrases : List String :=
  ["create table ", "alter table ", "drop table if exists ", "drop table "]

/-- Whether a statement begins with one of the phrases. -/
def IsAboutTable (sql : String) : Prop := ∃ p ∈ tablePhrases, p.toList <+: sql.toList

/-- The segments of the table that a statement addresses. -/
def tableOf? (q : Char) (sql : String) : Option (List String) := do
  let ps ← read q sql
  let name ← tablePhrases.findSome? fun p => ps.dropPrefix? (p.toList.map .bare)
  segments? (name.takeWhile (· ≠ .bare ' '))

theorem findSome?_dropPrefix? {p : String} (hp : p ∈ tablePhrases) {rest : List Piece}
    (hrest : rest.head? ≠ some (.bare 'i')) :
    tablePhrases.findSome? (fun p' => (p.toList.map Piece.bare ++ rest).dropPrefix?
      (p'.toList.map .bare)) = some rest := by
  simp only [tablePhrases, List.mem_cons, List.not_mem_nil, or_false] at hp
  rcases hp with rfl | rfl | rfl | rfl
  · simp [tablePhrases, List.dropPrefix?]
  · simp [tablePhrases, List.dropPrefix?]
  · simp [tablePhrases, List.dropPrefix?]
  · cases rest with
    | nil => simp [tablePhrases, List.dropPrefix?]
    | cons first rest =>
      have hfirst : first ≠ .bare 'i' := fun h => hrest (congrArg some h)
      simp [tablePhrases, List.dropPrefix?, hfirst]

/-- What is taken ends where something else begins. -/
theorem takeWhile_append_stop {α : Type} {p : α → Bool} {xs ys : List α} (hxs : ∀ x ∈ xs, p x)
    (hys : ∀ y ∈ ys.head?, p y = false) : (xs ++ ys).takeWhile p = xs := by
  rw [List.takeWhile_append_of_pos hxs]
  cases ys with
  | nil => exact List.append_nil xs
  | cons y ys => rw [List.takeWhile_cons_of_neg (by simp [hys y rfl]), List.append_nil]

/-- Behind its phrase a table is read up to the next blank. -/
theorem tableOf?_of_read {p sql : String} {more : List Piece} (hp : p ∈ tablePhrases)
    (hmore : ∀ piece ∈ more.head?, piece = .bare ' ')
    (h : read q sql = some (p.toList.map .bare ++ (namePieces n ++ more))) :
    tableOf? q sql = some (Text.splitAt '.' n) := by
  have hblank : ∀ piece ∈ namePieces n, decide (piece ≠ .bare ' ') = true := by
    intro piece hpiece
    rw [decide_eq_true_iff]
    rintro rfl
    rcases bare_of_mem_namePieces hpiece with h | h <;> cases h
  have hstop : ∀ piece ∈ more.head?, decide (piece ≠ .bare ' ') = false := by
    intro piece hpiece
    simp [hmore piece hpiece]
  have hfirst : (namePieces n ++ more).head? ≠ some (.bare 'i') := by
    intro hi
    rw [List.head?_append, Option.or_eq_some_iff] at hi
    rcases hi with hi | ⟨-, hi⟩
    · rcases bare_of_mem_namePieces (List.mem_of_mem_head? hi) with h | h <;> cases h
    · cases hmore _ hi
  have hname : (namePieces n ++ more).takeWhile (· ≠ .bare ' ') = namePieces n :=
    takeWhile_append_stop hblank hstop
  rw [tableOf?, h]
  show (tablePhrases.findSome? _).bind _ = _
  rw [findSome?_dropPrefix? hp hfirst, Option.bind_some, hname, segments?_namePieces]

/-- A statement that has a reading and goes on with a blank behind its table. -/
theorem tableOf?_eq_some {p rest : String} (hq : IsQuote q) (hp : p ∈ tablePhrases)
    (hread : (read q (p ++ Identifier.qualified q n ++ rest)).isSome)
    (hrest : ∀ c ∈ rest.toList.head?, c = ' ') :
    tableOf? q (p ++ Identifier.qualified q n ++ rest) = some (Text.splitAt '.' n) := by
  have hbare : ∀ p ∈ tablePhrases, Bare p := by decide
  have hhead : read q (p ++ Identifier.qualified q n) =
      some (p.toList.map .bare ++ namePieces n) :=
    read_bare_append hq (hbare p hp) (read_qualified hq n)
  cases hcs : rest.toList with
  | nil =>
    obtain rfl := String.toList_eq_nil_iff.mp hcs
    rw [String.append_empty] at hread ⊢
    have hnone : ∀ piece ∈ ([] : List Piece).head?, piece = .bare ' ' := by simp
    refine tableOf?_of_read hp hnone (hhead.trans ?_)
    rw [List.append_nil]
  | cons c cs =>
    -- behind the name the lexer goes on from the blank, with whatever the statement has there
    obtain rfl : c = ' ' := hrest c (by rw [hcs]; rfl)
    obtain ⟨ps, hps⟩ := Option.isSome_iff_exists.mp hread
    have hresume : read q (p ++ Identifier.qualified q n ++ rest) =
        (scan q .outside cs).map (p.toList.map .bare ++ namePieces n ++ .bare ' ' :: ·) := by
      rw [read, String.toList_append, hcs]
      exact scan_resume hq (by decide) cs hhead
    rw [hps] at hresume
    obtain ⟨more, -, rfl⟩ := Option.map_eq_some_iff.mp hresume.symm
    rw [List.append_assoc] at hps
    have hblank : ∀ piece ∈ (Piece.bare ' ' :: more).head?, piece = .bare ' ' := by simp
    exact tableOf?_of_read hp hblank hps

/-! ## Commands -/

/-- The statement has the table of the blueprint behind one of the phrases. -/
def Addresses (q : Char) (b : Blueprint) (sql : String) : Prop :=
  ∃ p ∈ tablePhrases, ∃ rest : String,
    sql = p ++ Identifier.qualified q b.table ++ rest ∧ ∀ c ∈ rest.toList.head?, c = ' '

/-- Whether a text begins with a phrase shows in any start of it that is no start of a phrase. -/
theorem not_isAboutTable (w : String) {sql : String} (hw : w.toList <+: sql.toList)
    (h : ∀ p ∈ tablePhrases, ¬ p.toList <+: w.toList ∧ ¬ w.toList <+: p.toList) :
    ¬ IsAboutTable sql := by
  rintro ⟨p, hp, hprefix⟩
  rcases List.prefix_or_prefix_of_prefix hprefix hw with hle | hle
  · exact (h p hp).1 hle
  · exact (h p hp).2 hle

theorem createIndex_not_isAboutTable (q : Char) (b : Blueprint) (i : Index) :
    ¬ IsAboutTable (createIndex q "index" b i) :=
  not_isAboutTable "create index " (by simp [createIndex]) (by decide)

theorem dropIndex_not_isAboutTable (name : String) : ¬ IsAboutTable ("drop index " ++ name) :=
  not_isAboutTable "drop index " (by simp) (by decide)

theorem addresses_alterTable (q : Char) (b : Blueprint) (change : String) :
    Addresses q b (alterTable q b change) :=
  ⟨"alter table ", by decide, " " ++ change, String.append_assoc, by simp⟩

theorem addresses_dropped (d : Dialect) (b : Blueprint) {p : String} (hp : p ∈ tablePhrases) :
    Addresses d.grammar.quote b (p ++ d.grammar.table b) :=
  ⟨p, hp, "", by rw [String.append_empty]; rfl, nofun⟩

theorem addresses_createTable (d : Dialect) (b : Blueprint) :
    Addresses d.grammar.quote b (d.grammar.createTable b) := by
  let columns := Text.commaJoin (d.grammar.columnDefinitions b)
  let keys := "".intercalate ((d.grammar.phrases.keyClauses b).map (", " ++ ·))
  refine ⟨"create table ", by decide, " (" ++ (columns ++ keys ++ ")"), ?_, by simp⟩
  simp only [createTable_eq, String.append_assoc, columns, keys]

theorem addresses_add (d : Dialect) (b : Blueprint) {sql : String} (h : sql ∈ d.grammar.add b) :
    Addresses d.grammar.quote b sql := by
  cases hd : d.grammar.capabilities.multiColumnAdd with
  | true =>
    rw [add_together hd, List.mem_singleton] at h
    subst h
    exact addresses_alterTable _ b _
  | false =>
    rw [add_oneByOne hd, List.mem_map] at h
    obtain ⟨c, -, rfl⟩ := h
    refine ⟨"alter table ", by decide, " add column " ++ d.grammar.columnDefinition c, ?_, by simp⟩
    simp only [addColumn, Grammar.table, String.append_assoc]

theorem eq_of_mem_one {s sql : String} {statements : List String}
    (h : (.ok [s] : Except SchemaError (List String)) = .ok statements) (hsql : sql ∈ statements) :
    sql = s := by
  obtain rfl := Except.ok.inj h
  exact List.mem_singleton.mp hsql

/-- A statement of a command has the table of the blueprint behind its phrase, or begins with
another one. -/
theorem addresses_or_not {d : Dialect} {b : Blueprint} {c : Command} {statements : List String}
    (h : d.grammar.compileCommand b c = .ok statements) {sql : String} (hsql : sql ∈ statements) :
    Addresses d.grammar.quote b sql ∨ ¬ IsAboutTable sql := by
  cases c with
  | add =>
    obtain rfl := Except.ok.inj h
    exact .inl (addresses_add d b hsql)
  | create =>
    obtain rfl := eq_of_mem_one h hsql
    exact .inl (addresses_createTable d b)
  | dropTable | dropTableIfExists =>
    obtain rfl := eq_of_mem_one h hsql
    exact .inl (addresses_dropped d b (by decide))
  | rename newName =>
    obtain rfl := eq_of_mem_one h hsql
    cases d with
    | mysql =>
      refine .inr (not_isAboutTable "rename table " ?_ (by decide))
      simp [Dialect.grammar, mysql]
    | sqlite | postgres => exact .inl (addresses_alterTable _ b _)
  | unique i =>
    obtain rfl := eq_of_mem_one h hsql
    cases d with
    | sqlite =>
      refine .inr (not_isAboutTable "create unique index " ?_ (by decide))
      simp [Dialect.grammar, sqlite, createIndex]
    | mysql | postgres => exact .inl (addresses_alterTable _ b _)
  | index i =>
    obtain rfl := eq_of_mem_one h hsql
    cases d with
    | mysql => exact .inl (addresses_alterTable _ b _)
    | sqlite | postgres => exact .inr (createIndex_not_isAboutTable _ b i)
  | dropUnique n =>
    obtain rfl := eq_of_mem_one h hsql
    cases d with
    | sqlite => exact .inr (dropIndex_not_isAboutTable _)
    | mysql | postgres => exact .inl (addresses_alterTable _ b _)
  | dropIndex n =>
    obtain rfl := eq_of_mem_one h hsql
    cases d with
    | mysql => exact .inl (addresses_alterTable _ b _)
    | sqlite | postgres => exact .inr (dropIndex_not_isAboutTable _)
  | foreign _ | primary _ =>
    cases d with
    | sqlite =>
      obtain rfl := Except.ok.inj h
      cases hsql
    | mysql | postgres =>
      obtain rfl := eq_of_mem_one h hsql
      exact .inl (addresses_alterTable _ b _)
  | dropColumn _ | dropForeign _ | dropPrimary _ =>
    cases d with
    | sqlite => cases h
    | mysql | postgres =>
      obtain rfl := eq_of_mem_one h hsql
      exact .inl (addresses_alterTable _ b _)

theorem read_isSome_of_mem {d : Dialect} {b : Blueprint} {c : Command} {statements : List String}
    (h : d.grammar.compileCommand b c = .ok statements) {sql : String} (hsql : sql ∈ statements) :
    (read d.grammar.quote sql).isSome := by
  obtain ⟨-, -, htokens, -⟩ := framedAll_compileCommand h
  have hmem : tokensOf d.grammar.quote sql ∈ (Layout.statements d b c).map some :=
    htokens ▸ List.mem_map_of_mem hsql
  obtain ⟨ts, -, hts⟩ := List.mem_map.mp hmem
  obtain ⟨ps, hps, -⟩ := Option.map_eq_some_iff.mp hts.symm
  exact Option.isSome_of_eq_some hps

/-- Every statement of a blueprint that creates, alters or drops a table addresses the segments
of the blueprint's table. -/
theorem tableOf?_of_mem {d : Dialect} {b : Blueprint} {statements : List String}
    (h : d.grammar.compile b = .ok statements) {sql : String} (hsql : sql ∈ statements)
    (habout : IsAboutTable sql) :
    tableOf? d.grammar.quote sql = some (Text.splitAt '.' b.table) := by
  obtain ⟨c, -, block, hblock, hmem⟩ := Spelling.exists_command_of_mem h hsql
  obtain ⟨p, hp, rest, rfl, hrest⟩ :=
    (addresses_or_not hblock hmem).resolve_right (not_not_intro habout)
  exact tableOf?_eq_some (isQuote_grammar d) hp (read_isSome_of_mem hblock hmem) hrest

end Schemata.Quoting
