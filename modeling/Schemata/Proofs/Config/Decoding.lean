import Schemata.Config.Document
import Schemata.Proofs.Json.Decoding
import Schemata.Proofs.Json.Reading

/-!
# Decoders of configurations invert their encoders

A part that is left out and a part that is there are told apart: no connection, no dialect and no
limit on waiting are members that are missing, and a pool that is switched off is `false` where
the bounds of one are an object. The pooling is read as a whole before its shape is looked at, so
its decoder works on a value where the others work on the place at which they stand.
-/
namespace Schemata

open Json

namespace ConnectionSettings

theorem ofName?_name (d : Dialect) : Dialect.ofName? d.name = some d := by
  cases d <;> decide

theorem decodeDialect_toJson (d : Dialect) (p : Place) :
    decodeDialect p (.ofJson d.toJson) = .ok (some d) := by
  have hchoice : Decoder.choice Dialect.ofName? p (.str d.name) = .ok d := by
    show Decoder.choice.named Dialect.ofName? d.name = _
    rw [Decoder.choice.named, ofName?_name]
    rfl
  show some <$> Decoder.choice Dialect.ofName? p (.str d.name) = _
  rw [hchoice]
  rfl

section

variable {p : Place} {s : Fields}

theorem step_url (hs : s.url = none) (url : String) :
    Fields.step p s "url" (.str url) = .ok { s with url := some url } := by
  show (Decoder.once s.url _ _ _ >>= _) = _
  rw [hs]
  rfl

theorem step_dialect (hs : s.dialect = none) (d : Dialect) :
    Fields.step p s "dialect" (.ofJson d.toJson) = .ok { s with dialect := some (some d) } := by
  show (Decoder.once s.dialect _ _ _ >>= _) = _
  rw [Decoder.once_ok hs (decodeDialect_toJson d p)]
  rfl

end

/-- The settings are told from their object. -/
theorem decode_toJson (s : ConnectionSettings) {p : Place} (hp : 1 ≤ p.depth) :
    decode p (.ofJson s.toJson) = .ok s := by
  obtain ⟨url, dialect⟩ := s
  have hfold : Decoder.foldMembers (Fields.step { p with depth := p.depth - 1 }) {}
      (Draft.ofJson.ofMembers
        (("url", .str url) :: (dialect.map fun d => ("dialect", d.toJson)).toList)) =
      .ok ⟨some url, dialect.map some⟩ := by
    rw [Decoder.foldMembers_cons (step_url rfl url)]
    cases dialect with
    | none => rfl
    | some d => exact Decoder.foldMembers_cons (step_dialect rfl d)
  rw [toJson, Draft.ofJson, decode, Place.enter_eq_ok hp]
  simp only [bind, Except.bind]
  rw [hfold]
  cases dialect <;> rfl

theorem nesting_toJson (s : ConnectionSettings) : s.toJson.nesting = 1 := by
  obtain ⟨url, dialect⟩ := s
  cases dialect <;> rfl

theorem faithful_toJson (s : ConnectionSettings) : Faithful s.toJson := by
  obtain ⟨url, dialect⟩ := s
  cases dialect with
  | none => exact ⟨trivial, trivial⟩
  | some d => exact ⟨trivial, trivial, trivial⟩

end ConnectionSettings

namespace PoolBounds

theorem count_toNat (n : UInt32) (p : Place) : count p (.ofJson (.int n.toNat)) = .ok n.toNat :=
  Decoder.natBelow_ofNat n.toNat_lt p

theorem millis_toNat (n : UInt64) (p : Place) : millis p (.ofJson (.int n.toNat)) = .ok n.toNat :=
  Decoder.natBelow_ofNat n.toNat_lt p

section

variable {p : Place} {s : Fields}

theorem step_max (hs : s.max = none) (max : UInt32) :
    Fields.step p s "max" (.ofJson (.int max.toNat)) = .ok { s with max := some max.toNat } := by
  show (Decoder.once s.max _ _ _ >>= _) = _
  rw [Decoder.once_ok hs (count_toNat max p)]
  rfl

theorem step_min (hs : s.min = none) (min : UInt32) :
    Fields.step p s "min" (.ofJson (.int min.toNat)) = .ok { s with min := some min.toNat } := by
  show (Decoder.once s.min _ _ _ >>= _) = _
  rw [Decoder.once_ok hs (count_toNat min p)]
  rfl

theorem step_idle (hs : s.idle = none) (idle : UInt64) :
    Fields.step p s "idleTimeoutMillis" (.ofJson (.int idle.toNat)) =
      .ok { s with idle := some idle.toNat } := by
  show (Decoder.once s.idle _ _ _ >>= _) = _
  rw [Decoder.once_ok hs (millis_toNat idle p)]
  rfl

theorem step_acquire (hs : s.acquire = none) (acquire : UInt64) :
    Fields.step p s "acquireTimeoutMillis" (.ofJson (.int acquire.toNat)) =
      .ok { s with acquire := some (some acquire.toNat) } := by
  have hmillis : Decoder.optional millis p (.ofJson (.int acquire.toNat)) =
      .ok (some acquire.toNat) := by
    show some <$> millis p (.ofJson (.int acquire.toNat)) = _
    rw [millis_toNat]
    rfl
  show (Decoder.once s.acquire _ _ _ >>= _) = _
  rw [Decoder.once_ok hs hmillis]
  rfl

end

/-- The bounds of a pool are told from their object. -/
theorem decode_toJson (b : PoolBounds) {p : Place} (hp : 1 ≤ p.depth) :
    decode p (.ofJson b.toJson) = .ok b := by
  obtain ⟨max, min, idle, acquire⟩ := b
  have hfold : Decoder.foldMembers (Fields.step { p with depth := p.depth - 1 }) {}
      (Draft.ofJson.ofMembers ([("max", .int max.toNat), ("min", .int min.toNat),
        ("idleTimeoutMillis", .int idle.toNat)]
        ++ (acquire.map fun ms => ("acquireTimeoutMillis", Json.int ms.toNat)).toList)) =
      .ok ⟨some max.toNat, some min.toNat, some idle.toNat, acquire.map (some ·.toNat)⟩ := by
    simp only [List.cons_append, List.nil_append]
    rw [Decoder.foldMembers_cons (step_max rfl max), Decoder.foldMembers_cons (step_min rfl min),
      Decoder.foldMembers_cons (step_idle rfl idle)]
    cases acquire with
    | none => rfl
    | some ms => exact Decoder.foldMembers_cons (step_acquire rfl ms)
  rw [toJson, Draft.ofJson, decode, Place.enter_eq_ok hp]
  simp only [bind, Except.bind]
  rw [hfold]
  cases acquire <;> simp [endsWell, Fields.build, pure, Except.pure]

theorem nesting_toJson (b : PoolBounds) : b.toJson.nesting = 1 := by
  obtain ⟨max, min, idle, acquire⟩ := b
  cases acquire <;> rfl

theorem faithful_toJson (b : PoolBounds) : Faithful b.toJson := by
  have hcount : ∀ n : UInt32, Faithful (.int n.toNat) := fun n =>
    faithful_natCast (Nat.lt_trans n.toNat_lt (by decide))
  have hmillis : ∀ n : UInt64, Faithful (.int n.toNat) := fun n => faithful_natCast n.toNat_lt
  obtain ⟨max, min, idle, acquire⟩ := b
  rw [toJson, Faithful, faithfulMembers_iff]
  cases acquire <;> simp [hcount, hmillis]

end PoolBounds

namespace Pooling

theorem nesting_toJson (p : Pooling) : p.toJson.nesting ≤ 1 := by
  cases p with
  | disabled => exact Nat.zero_le _
  | enabled bounds => exact Nat.le_of_eq bounds.nesting_toJson

theorem faithful_toJson (p : Pooling) : Faithful p.toJson := by
  cases p with
  | disabled => trivial
  | enabled bounds => exact bounds.faithful_toJson

/-- An object is never taken for a truth value. -/
theorem ofJson_toJson (p : Pooling) : ofJson p.toJson = .ok p := by
  cases p with
  | disabled => rfl
  | enabled bounds =>
    show Pooling.enabled <$> PoolBounds.decode .whole (.ofJson bounds.toJson) = _
    rw [bounds.decode_toJson (by decide)]
    rfl

theorem decode_toJson (pooling : Pooling) {p : Place} (hp : 1 ≤ p.depth) :
    decode p (.ofJson pooling.toJson) = .ok pooling := by
  show Draft.read p.depth (.ofJson pooling.toJson) >>= ofJson = _
  rw [Draft.read_ofJson _ (Nat.le_trans pooling.nesting_toJson hp)]
  exact pooling.ofJson_toJson

end Pooling

namespace Config

section

variable {p : Place} {s : Fields}

theorem step_connection (hs : s.connection = none) (hp : 1 ≤ p.depth)
    (settings : ConnectionSettings) :
    Fields.step p s "connection" (.ofJson settings.toJson) =
      .ok { s with connection := some (some settings) } := by
  have hsettings : Decoder.optional ConnectionSettings.decode p (.ofJson settings.toJson) =
      .ok (some settings) := by
    show some <$> ConnectionSettings.decode p (.ofJson settings.toJson) = _
    rw [settings.decode_toJson hp]
    rfl
  show (Decoder.once s.connection _ _ _ >>= _) = _
  rw [Decoder.once_ok hs hsettings]
  rfl

theorem step_pool (hs : s.pooling = none) (hp : 1 ≤ p.depth) (pooling : Pooling) :
    Fields.step p s "pool" (.ofJson pooling.toJson) = .ok { s with pooling := some pooling } := by
  show (Decoder.once s.pooling _ _ _ >>= _) = _
  rw [Decoder.once_ok hs (pooling.decode_toJson hp)]
  rfl

theorem step_debug (hs : s.debug = none) (debug : Bool) :
    Fields.step p s "debug" (.bool debug) = .ok { s with debug := some debug } := by
  show (Decoder.once s.debug _ _ _ >>= _) = _
  rw [hs]
  rfl

end

/-- A configuration is told from its object. -/
theorem decode_toJson (c : Config) {p : Place} (hp : 2 ≤ p.depth) :
    decode p (.ofJson c.toJson) = .ok c := by
  have hp' : 1 ≤ p.depth - 1 := Nat.le_sub_of_add_le hp
  obtain ⟨connection, pooling, debug⟩ := c
  have hfold : Decoder.foldMembers (Fields.step { p with depth := p.depth - 1 }) {}
      (Draft.ofJson.ofMembers ((connection.map fun s => ("connection", s.toJson)).toList
        ++ [("pool", pooling.toJson), ("debug", .bool debug)])) =
      .ok ⟨connection.map some, some pooling, some debug⟩ := by
    cases connection with
    | none =>
      exact (Decoder.foldMembers_cons (step_pool rfl hp' pooling)).trans
        (Decoder.foldMembers_cons (step_debug rfl debug))
    | some settings =>
      exact (Decoder.foldMembers_cons (step_connection rfl hp' settings)).trans
        ((Decoder.foldMembers_cons (step_pool rfl hp' pooling)).trans
          (Decoder.foldMembers_cons (step_debug rfl debug)))
  rw [toJson, Draft.ofJson, decode, Place.enter_eq_ok (Nat.le_of_succ_le hp)]
  simp only [bind, Except.bind]
  rw [hfold]
  cases connection <;> rfl

/-- A configuration is told from the document that it is saved as. -/
theorem ofDocument_ofJson (c : Config) : ofDocument (.ofJson c.toJson) = .ok c := by
  rw [ofDocument, Document.decode, Document.ofJson, c.decode_toJson (by decide)]
  rfl

/-- Whatever the bounds of a pool, they have 64 bits at most. -/
theorem faithful_toJson (c : Config) : Faithful c.toJson := by
  obtain ⟨connection, pooling, debug⟩ := c
  rw [toJson, Faithful, faithfulMembers_iff, List.forall_mem_append]
  refine ⟨?_, ?_⟩
  · cases connection with
    | none => simp
    | some settings => simp [settings.faithful_toJson]
  · simp only [List.forall_mem_cons]
    exact ⟨pooling.faithful_toJson, trivial, by simp⟩

end Config

end Schemata
