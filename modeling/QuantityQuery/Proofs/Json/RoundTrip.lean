import QuantityQuery.Proofs.Catalogue.Json
import QuantityQuery.Proofs.Query.Json
import QuantityQuery.Search.Json

/-!
# Values read back

A value is read of a text and written, and a value is read of the text that is written. It is the
same value if all its singles are finite (`Json.Kind.decode_encode_iff`): strings and whole numbers
come back as they are, and other finite numbers are taken to come back one by one. The doubles of
a value are finite, but a single can be infinite where the number that it is read from is too great
for it, and nothing is read from what is written of that.

* `Json.Kind`: the kinds of values that are both read and written.
-/

namespace QuantityQuery

/-! ### Hits -/

namespace Hit

variable {hit : Hit}

theorem isProper_toJson (hit : Hit) : hit.toJson.IsProper :=
  .object (List.forall_mem_cons.2 ⟨Json.isProper_ofInt _,
    List.forall_mem_singleton.2 (Json.isProper_ofSingle _)⟩)

/-- Documents that are read have an identity of 64 bits. -/
theorem id_le_of_ofJson {json : Json} (h : ofJson json = .ok hit) :
    hit.id ≤ JsonNumber.maxNatural := by
  obtain ⟨found, -, h⟩ := bind_eq_ok.1 h
  obtain ⟨id, hid, h⟩ := bind_eq_ok.1 h
  obtain ⟨score, -, h⟩ := bind_eq_ok.1 h
  obtain rfl := Except.ok.inj h
  obtain ⟨json, hjson⟩ := Json.Members.exists_of_required hid
  exact Json.le_of_readNatural hjson

/-- The hits that can be read back are those with a finite score. -/
theorem ofJson_toJson_iff (hid : hit.id ≤ JsonNumber.maxNatural)
    (hscore : Json.Survives JsonNumber.singleLayout hit.score) :
    ofJson hit.toJson = .ok hit ↔ hit.score.isFinite := by
  have hread := Json.readNatural_ofInt hid
  rw [ofJson, toJson]
  refine Json.readRecord_bind_iff (by decide) (List.Sublist.refl _) (fun h => ?_)
    fun found hfound => ?_
  · have hreads : ∃ x : Single, (Json.ofSingle hit.score).readBinary = .ok x := ⟨_, hscore h⟩
    simpa [Json.Checked, Table.lookup_cons, hread] using hreads
  · have hid : found.lookup "doc_id" = some (.ofInt hit.id) := by
      simp [hfound]
    have hmember : found.lookup "score" = some (.ofSingle hit.score) := by
      simp [hfound, Table.lookup_cons]
    rw [Json.Members.required_of_lookup hid, Json.Members.required_of_lookup hmember, hread]
    exact hscore.bind_iff (f := fun score => .ok { hit with score }) rfl

end Hit

/-! ### Kinds of values -/

/-- The doubles of a unit. -/
def MeasureUnit.doubles (u : MeasureUnit) : List Double := u.gap.toList.map (·.value)

theorem MeasureUnit.mem_doubles {u : MeasureUnit} {g : Gap} (hg : g ∈ u.gap) :
    g.value ∈ u.doubles :=
  List.mem_map_of_mem (Option.mem_toList.2 hg)

/-- The doubles of a field and of its units. -/
def Field.doubles (f : Field) : List Double :=
  f.gap.toList.map (·.value) ++ f.units.flatMap (·.doubles)

/-- The doubles among bounds. -/
def Bounds.doubles (b : Bounds) : List Double := b.limits.filterMap (·.double?)

namespace Json

/-- The kinds of values that are both read and written. -/
inductive Kind
  | boost
  | gap
  | unit
  | field
  | bounds
  | range
  | term
  | hit

namespace Kind

/-- The values of a kind. -/
def Value : Kind → Type
  | boost => Boost
  | gap => Gap
  | unit => MeasureUnit
  | field => Field
  | bounds => Bounds
  | range => RangeQuery
  | term => TermQuery
  | hit => Hit

/-- Reads a value. -/
def read : (k : Kind) → Decoder k.Value
  | boost => Boost.ofJson
  | gap => Gap.ofJson
  | unit => MeasureUnit.ofJson
  | field => Field.ofJson
  | bounds => Bounds.ofJson
  | range => RangeQuery.ofJson
  | term => TermQuery.ofJson
  | hit => Hit.ofJson

/-- Writes a value. -/
def write : (k : Kind) → k.Value → Json
  | boost => Boost.toJson
  | gap => Gap.toJson
  | unit => MeasureUnit.toJson
  | field => Field.toJson
  | bounds => Bounds.toJson
  | range => RangeQuery.toJson
  | term => TermQuery.toJson
  | hit => Hit.toJson

/-- The doubles of a value. -/
def doubles : (k : Kind) → k.Value → List Double
  | gap => fun g => [g.value]
  | unit => MeasureUnit.doubles
  | field => Field.doubles
  | bounds => Bounds.doubles
  | range => fun q => q.bounds.doubles
  | boost | term | hit => fun _ => []

/-- The singles of a value. -/
def singles : (k : Kind) → k.Value → List Single
  | bounds => fun b => [b.boost]
  | range => fun q => [q.bounds.boost]
  | term => fun q => [q.boost]
  | hit => fun h => [h.score]
  | boost | gap | unit | field => fun _ => []

theorem isProper_write (k : Kind) (a : k.Value) : (k.write a).IsProper := by
  cases k with
  | boost => exact Boost.isProper_toJson a
  | gap => exact Gap.isProper_toJson a
  | unit => exact MeasureUnit.isProper_toJson a
  | field => exact Field.isProper_toJson a
  | bounds => exact Bounds.isProper_toJson a
  | range => exact RangeQuery.isProper_toJson a
  | term => exact TermQuery.isProper_toJson a
  | hit => exact Hit.isProper_toJson a

/-- Bounds that are read are read back, if their doubles are. -/
theorem recovered_of_mem_limits {b : Bounds} (h : ∀ e ∈ b.limits, e.InRange)
    (hdoubles : ∀ x ∈ b.doubles, Survives JsonNumber.doubleLayout x) :
    ∀ e ∈ b.limits, Recovered Bound.ofJson Bound.toJson e :=
  fun e he => Bound.recovered (h e he) fun x hx =>
    hdoubles x (List.mem_filterMap.2 ⟨e, he, hx⟩)

/-- A value that is read is read from the tree that is written of it, if its singles are finite. -/
theorem read_write_iff (k : Kind) {json : Json} {a : k.Value} (h : k.read json = .ok a)
    (hdoubles : ∀ x ∈ k.doubles a, Survives JsonNumber.doubleLayout x)
    (hsingles : ∀ x ∈ k.singles a, Survives JsonNumber.singleLayout x) :
    k.read (k.write a) = .ok a ↔ ∀ x ∈ k.singles a, x.isFinite := by
  cases k with
  | boost => exact iff_of_true (Boost.ofJson_toJson a) (List.forall_mem_nil _)
  | gap =>
    exact iff_of_true (Gap.ofJson_toJson (hdoubles _ List.mem_cons_self)) (List.forall_mem_nil _)
  | unit =>
    have hgap : ∀ g ∈ a.gap, Survives JsonNumber.doubleLayout g.value := fun g hg =>
      hdoubles _ (MeasureUnit.mem_doubles hg)
    exact iff_of_true (MeasureUnit.ofJson_toJson hgap) (List.forall_mem_nil _)
  | field =>
    have hgap : ∀ g ∈ a.gap, Survives JsonNumber.doubleLayout g.value := fun g hg =>
      hdoubles _ (List.mem_append_left _ (List.mem_map_of_mem (Option.mem_toList.2 hg)))
    have hunits : ∀ u ∈ a.units, ∀ g ∈ u.gap, Survives JsonNumber.doubleLayout g.value :=
      fun u hu g hg => hdoubles _
        (List.mem_append_right _ (List.mem_flatMap.2 ⟨u, hu, MeasureUnit.mem_doubles hg⟩))
    exact iff_of_true (Field.ofJson_toJson hgap hunits) (List.forall_mem_nil _)
  | bounds =>
    have hlimits := recovered_of_mem_limits (Bounds.inRange_of_ofJson h) hdoubles
    rw [singles, List.forall_mem_singleton]
    exact Bounds.ofJson_toJson_iff hlimits (hsingles _ List.mem_cons_self)
  | range =>
    have hlimits := recovered_of_mem_limits (RangeQuery.inRange_of_ofJson h) hdoubles
    rw [singles, List.forall_mem_singleton]
    exact RangeQuery.ofJson_toJson_iff hlimits (hsingles _ List.mem_cons_self)
  | term =>
    rw [singles, List.forall_mem_singleton]
    exact TermQuery.ofJson_toJson_iff (hsingles _ List.mem_cons_self)
  | hit =>
    rw [singles, List.forall_mem_singleton]
    exact Hit.ofJson_toJson_iff (Hit.id_le_of_ofJson h) (hsingles _ List.mem_cons_self)

/-- A value that is read of a text is read again of the text that is written of it, if and only if
    its singles are finite. -/
theorem decode_encode_iff (k : Kind) {text : String} {a : k.Value}
    (h : decode k.read text = .ok a)
    (hdoubles : ∀ x ∈ k.doubles a, Survives JsonNumber.doubleLayout x)
    (hsingles : ∀ x ∈ k.singles a, Survives JsonNumber.singleLayout x) :
    decode k.read (encode (k.write a)) = .ok a ↔ ∀ x ∈ k.singles a, x.isFinite := by
  obtain ⟨json, hjson⟩ := exists_of_decode h
  rw [(k.isProper_write a).decode_encode]
  exact k.read_write_iff hjson hdoubles hsingles

/-- A range with a double and a single is read back. -/
theorem decode_encode_range :
    let q : RangeQuery := ⟨"size", { gte := some (.real (.ofRatio false 3 2)), boost := 2 }⟩
    decode RangeQuery.ofJson "\x7b\"field\":\"size\",\"boost\":2,\"gte\":1.5\x7d" = .ok q ∧
      (∀ x ∈ range.doubles q, Survives JsonNumber.doubleLayout x) ∧
      (∀ x ∈ range.singles q, Survives JsonNumber.singleLayout x) ∧
      (decode RangeQuery.ofJson (encode q.toJson) = .ok q ↔ ∀ x ∈ range.singles q, x.isFinite) := by
  intro q
  have hread :
      decode RangeQuery.ofJson "\x7b\"field\":\"size\",\"boost\":2,\"gte\":1.5\x7d" = .ok q := by
    decide +kernel
  have hdoubles : ∀ x ∈ range.doubles q, Survives JsonNumber.doubleLayout x :=
    List.forall_mem_singleton.2 fun _ => by decide +kernel
  have hsingles : ∀ x ∈ range.singles q, Survives JsonNumber.singleLayout x :=
    List.forall_mem_singleton.2 fun _ => by decide +kernel
  exact ⟨hread, hdoubles, hsingles, decode_encode_iff range hread hdoubles hsingles⟩

/-- A boost that is a finite double but no finite single is read, and is not read back. -/
theorem decode_infinite_boost :
    let q : TermQuery := ⟨"size", "42", .infinite false⟩
    decode TermQuery.ofJson
        "\x7b\"field\":\"size\",\"term\":\"42\",\"boost\":1e39\x7d" = .ok q ∧
      encode q.toJson = "\x7b\"field\":\"size\",\"term\":\"42\",\"boost\":null\x7d" ∧
      decode TermQuery.ofJson (encode q.toJson) = .error malformed := by
  decide +kernel

end Kind

end Json

end QuantityQuery
