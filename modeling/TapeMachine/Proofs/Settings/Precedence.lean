import Mathlib.Data.List.TakeWhile
import TapeMachine.Proofs.Settings.Document
import TapeMachine.Proofs.Settings.Variables

/-!
Settings from layers. Each field has the value of the highest layer that sets it, and only that value
is checked, on its own (`Settings.layers_resolve_field_by_field`).
-/
namespace TapeMachine

namespace Checked

variable {α β : Type} {a : Checked α} {b : Checked β} {x : α} {y : β}

theorem both_eq_ok_iff : both a b = .ok (x, y) ↔ a = .ok x ∧ b = .ok y := by
  cases a <;> cases b <;> simp [both]

theorem complaints_both (a : Checked α) (b : Checked β) :
    (both a b).complaints = a.complaints ++ b.complaints := by
  cases a <;> cases b <;> rfl

theorem complaints_ite (p : Prop) [Decidable p] (a : Checked α) (x : α) :
    (if p then a else .ok x).complaints = if p then a.complaints else [] := by
  split <;> rfl

end Checked

namespace Value

def isNull : Value → Bool
  | .null => true
  | _ => false

/-- The entry of a field. -/
def named (field : String) (v : Value) : Value × Value := (.text (Text.ofString field), v)

/-- Later entries count before earlier ones. -/
theorem lookup?_append (name : String) (a b : List (Value × Value)) :
    Value.lookup? name (a ++ b) = (Value.lookup? name b).or (Value.lookup? name a) := by
  simp only [Value.lookup?, List.reverse_append, List.find?_append, Option.map_or]

theorem lookup?_named_cons (name field : String) (v : Value) (rest : List (Value × Value)) :
    Value.lookup? name (named field v :: rest) =
      (Value.lookup? name rest).or (if field = name then some v else none) := by
  have hsingle : Value.lookup? name [named field v] = if field = name then some v else none := by
    by_cases h : field = name
    · simp [Value.lookup?, named, h]
    · have hne : (Text.ofString field == Text.ofString name) = false :=
        beq_eq_false_iff_ne.2 fun he => h (Text.ofString_injective he)
      simp [Value.lookup?, named, h, hne]
  rw [← hsingle]
  exact lookup?_append name [named field v] rest

theorem lookup?_map_named (name : String) (fields : List (String × Value)) :
    Value.lookup? name (fields.map fun f => named f.1 f.2) = fields.reverse.lookup name := by
  induction fields with
  | nil => rfl
  | cons f fields ih =>
    rw [List.map_cons, lookup?_named_cons, ih, List.reverse_cons, List.lookup_append, lookup_row]
    simp only [List.lookup_nil, eq_comm]

/-- In a table with one row for each name, a name has the entry of its row. -/
theorem lookup?_table {rows : List (String × String)} (hrows : (rows.map (·.1)).Nodup)
    (g : String → String → Option Value) (name : String) :
    Value.lookup? name (rows.filterMap fun r => (g r.1 r.2).map (named r.1)) =
      (rows.lookup name).bind (g name) := by
  induction rows with
  | nil => rfl
  | cons row rows ih =>
    obtain ⟨hrow, hnodup⟩ := List.nodup_cons.1 hrows
    have hcons : Value.lookup? name ((row :: rows).filterMap fun r => (g r.1 r.2).map (named r.1)) =
        ((rows.lookup name).bind (g name)).or (if row.1 = name then g row.1 row.2 else none) := by
      rw [← ih hnodup]
      cases hg : g row.1 row.2 with
      | none => simp [hg]
      | some v => simp [hg, lookup?_named_cons]
    rw [hcons, lookup_row]
    by_cases h : row.1 = name
    · subst h
      simp [lookup_eq_none_of_not_mem hrow]
    · simp [h, Ne.symm h]

end Value

namespace Settings

variable {env : Environment} {raw : List (Value × Value)} {overrides : List (String × Value)}

/-! ### What each layer says about a field -/

/-- What the overrides say: the last that is not null. -/
def override? (overrides : List (String × Value)) (field : String) : Option Value :=
  (overrides.filter fun o => !o.2.isNull).reverse.lookup field

/-- What a variable says: its value without the blanks around it, unless it is blank. -/
def inEnvironment? (env : Environment) (var : String) : Option Value :=
  (env.get? var).bind fun value =>
    if value.toList.all isBlankChar then none else some (.text (Text.ofString (stripString value)))

/-- The value of a field: that of the overrides, or else that of the document, which may be null, or else
that of the environment. -/
def resolve (env : Environment) (raw : List (Value × Value)) (overrides : List (String × Value))
    (field var : String) : Option Value :=
  (override? overrides field).or ((Value.lookup? field raw).or (inEnvironment? env var))

/-- The fields that have a value, with it. -/
def resolved (env : Environment) (raw : List (Value × Value)) (overrides : List (String × Value)) :
    List (Value × Value) :=
  fieldVariables.filterMap fun f => (resolve env raw overrides f.1 f.2).map (Value.named f.1)

theorem nodup_fieldVariables : (fieldVariables.map (·.1)).Nodup := by decide

theorem lookup_fieldVariables {field var : String} (h : (field, var) ∈ fieldVariables) :
    fieldVariables.lookup field = some var := by
  simp only [fieldVariables, List.mem_cons, List.not_mem_nil, or_false, Prod.mk.injEq] at h
  rcases h with ⟨rfl, rfl⟩ | ⟨rfl, rfl⟩ | ⟨rfl, rfl⟩ | ⟨rfl, rfl⟩ <;> decide

/-- Nothing is left of a text without its blanks exactly if it is blank. -/
theorem isEmpty_stripString (s : String) : (stripString s).isEmpty = s.toList.all isBlankChar := by
  rw [Bool.eq_iff_iff, List.all_eq_true, stripString, String.isEmpty_iff, String.ofList_eq_empty_iff,
    List.reverse_eq_nil_iff, List.dropWhile_eq_nil_iff]
  simp only [List.mem_reverse]
  constructor
  · intro h c hc
    rw [← List.takeWhile_append_dropWhile (p := isBlankChar) (l := s.toList)] at hc
    rcases List.mem_append.1 hc with hc | hc
    · exact List.mem_takeWhile_imp hc
    · exact h c hc
  · intro h c hc
    exact h c ((List.dropWhile_sublist isBlankChar).subset hc)

theorem environmentEntry?_eq (env : Environment) (field var : String) :
    environmentEntry? env field var = (inEnvironment? env var).map (Value.named field) := by
  unfold environmentEntry? inEnvironment?
  cases env.get? var with
  | none => rfl
  | some value =>
    simp only [Option.bind_some, isEmpty_stripString]
    split <;> rfl

theorem lookup?_environmentLayer (env : Environment) (field : String) :
    Value.lookup? field (environmentLayer env) =
      (fieldVariables.lookup field).bind (inEnvironment? env) := by
  simp only [environmentLayer, environmentEntry?_eq]
  exact Value.lookup?_table nodup_fieldVariables (fun _ var => inEnvironment? env var) field

theorem overrideLayer_eq (overrides : List (String × Value)) :
    overrideLayer overrides =
      (overrides.filter fun o => !o.2.isNull).map fun o => Value.named o.1 o.2 := by
  induction overrides with
  | nil => rfl
  | cons o rest ih =>
    obtain ⟨name, v⟩ := o
    unfold overrideLayer at ih ⊢
    cases v with
    | null => simpa [Value.isNull] using ih
    | _ => simpa [Value.isNull, Value.named] using ih

theorem lookup?_overrideLayer (overrides : List (String × Value)) (field : String) :
    Value.lookup? field (overrideLayer overrides) = override? overrides field := by
  rw [overrideLayer_eq, Value.lookup?_map_named, override?]

/-- The layers say of each field what the highest of them says. -/
theorem lookup?_layers {field var : String} (h : (field, var) ∈ fieldVariables) :
    Value.lookup? field (environmentLayer env ++ raw ++ overrideLayer overrides) =
      resolve env raw overrides field var := by
  rw [Value.lookup?_append, Value.lookup?_append, lookup?_overrideLayer, lookup?_environmentLayer,
    lookup_fieldVariables h]
  rfl

theorem lookup?_resolved {field var : String} (h : (field, var) ∈ fieldVariables) :
    Value.lookup? field (resolved env raw overrides) = resolve env raw overrides field var := by
  rw [resolved, Value.lookup?_table nodup_fieldVariables (resolve env raw overrides),
    lookup_fieldVariables h]
  rfl

/-! ### One field at a time -/

variable {entries entries' : List (Value × Value)} {s : Settings}

/-- Settings in which a list of entries sets at most one field. -/
def alone (field : String) (v : Option Value) : Checked Settings :=
  ofEntries (v.toList.map (Value.named field))

/-- Whether two settings agree in a field. -/
structure SameIn (field : String) (s t : Settings) : Prop where
  strictLoops : field = "strict_loops" → s.strictLoops = t.strictLoops
  cellBits : field = "cell_bits" → s.cellBits = t.cellBits
  overflow : field = "overflow" → s.overflow = t.overflow
  trace : field = "trace" → s.trace = t.trace

def strictField (entries : List (Value × Value)) : Checked Bool :=
  Value.field entries "strict_loops" false Value.toBool

def widthField (entries : List (Value × Value)) : Checked CellWidth :=
  Value.field entries "cell_bits" CellWidth.widest Value.toWidth

def overflowField (entries : List (Value × Value)) : Checked OverflowMode :=
  Value.field entries "overflow" .wrap Value.toOverflow

def traceField (entries : List (Value × Value)) : Checked Bool :=
  Value.field entries "trace" false Value.toBool

theorem ofEntries_eq (entries : List (Value × Value)) :
    ofEntries entries =
      (Checked.both (Checked.both (strictField entries) (widthField entries))
        (Checked.both (overflowField entries) (traceField entries))).map fun
          | ((strict, width), (overflow, trace)) =>
            ⟨strict, width.val, overflow, trace, width.property.1, width.property.2⟩ := by
  change (Checked.both (Checked.both (strictField entries) (widthField entries))
    (Checked.both (overflowField entries) (traceField entries)) >>= _) = _
  cases Checked.both _ _ <;> rfl

/-- Settings are accepted if every field is. -/
theorem ofEntries_eq_ok_iff :
    ofEntries entries = .ok s ↔
      strictField entries = .ok s.strictLoops ∧
      widthField entries = .ok ⟨s.cellBits, s.le_cellBits, s.cellBits_le⟩ ∧
      overflowField entries = .ok s.overflow ∧ traceField entries = .ok s.trace := by
  rw [ofEntries_eq]
  constructor
  · intro h
    cases hboth : Checked.both (Checked.both (strictField entries) (widthField entries))
        (Checked.both (overflowField entries) (traceField entries)) with
    | error cs =>
      rw [hboth] at h
      cases h
    | ok fields =>
      rw [hboth] at h
      cases Except.ok.inj h
      obtain ⟨hfirst, hsecond⟩ := Checked.both_eq_ok_iff.1 hboth
      obtain ⟨hstrict, hwidth⟩ := Checked.both_eq_ok_iff.1 hfirst
      obtain ⟨hoverflow, htrace⟩ := Checked.both_eq_ok_iff.1 hsecond
      exact ⟨hstrict, hwidth, hoverflow, htrace⟩
  · rintro ⟨hstrict, hwidth, hoverflow, htrace⟩
    rw [hstrict, hwidth, hoverflow, htrace]
    rfl

/-- The complaints about settings are those about the fields, in order. -/
theorem complaints_ofEntries (entries : List (Value × Value)) :
    (ofEntries entries).complaints =
      (strictField entries).complaints ++ (widthField entries).complaints ++
      ((overflowField entries).complaints ++ (traceField entries).complaints) := by
  rw [← Checked.complaints_both, ← Checked.complaints_both, ← Checked.complaints_both, ofEntries_eq]
  cases Checked.both _ _ <;> rfl

theorem ofEntries_congr
    (h : ∀ f ∈ fieldVariables, Value.lookup? f.1 entries = Value.lookup? f.1 entries') :
    ofEntries entries = ofEntries entries' := by
  have h₁ := h ("strict_loops", "BFVM_STRICT_LOOPS") (by decide)
  have h₂ := h ("cell_bits", "BFVM_CELL_BITS") (by decide)
  have h₃ := h ("overflow", "BFVM_OVERFLOW") (by decide)
  have h₄ := h ("trace", "BFVM_TRACE") (by decide)
  simp only [ofEntries, Value.field, h₁, h₂, h₃, h₄]

theorem lookup?_alone (name field : String) (v : Option Value) :
    Value.lookup? name (v.toList.map (Value.named field)) = if field = name then v else none := by
  cases v with
  | none => simp [Value.lookup?]
  | some v => exact Value.lookup?_named_cons name field v []

/-- A field that is set alone is checked as among others, and every other field has its default. -/
theorem field_alone {α : Type} {check : Value → Checked α} {default : α} {field name : String}
    {v : Option Value} (h : Value.lookup? field entries = v) :
    Value.field (v.toList.map (Value.named field)) name default check =
      if field = name then Value.field entries name default check else .ok default := by
  unfold Value.field
  rw [lookup?_alone]
  by_cases hname : field = name
  · rw [if_pos hname, if_pos hname, ← hname, h]
  · rw [if_neg hname, if_neg hname]

theorem fields_alone {field : String} {v : Option Value} (h : Value.lookup? field entries = v) :
    let one := v.toList.map (Value.named field)
    strictField one = (if field = "strict_loops" then strictField entries else .ok false) ∧
    widthField one = (if field = "cell_bits" then widthField entries else .ok CellWidth.widest) ∧
    overflowField one = (if field = "overflow" then overflowField entries else .ok .wrap) ∧
    traceField one = (if field = "trace" then traceField entries else .ok false) :=
  ⟨field_alone h, field_alone h, field_alone h, field_alone h⟩

/-- Each field is accepted or refused for its own value, whatever is said about the others. -/
structure FieldByField (value : String → String → Option Value) (result : Except LoadError Settings) :
    Prop where
  accepted : (∃ s, result = .ok s) ↔
    ∀ f ∈ fieldVariables, ∃ t, alone f.1 (value f.1 f.2) = .ok t
  same : ∀ s, result = .ok s → ∀ f ∈ fieldVariables, ∀ t, alone f.1 (value f.1 f.2) = .ok t →
    SameIn f.1 s t
  complaints : ∀ r, result = .error (.rejected r) →
    r.complaints = fieldVariables.flatMap fun f => (alone f.1 (value f.1 f.2)).complaints

section Alone

variable {field : String} {v : Option Value} (h : Value.lookup? field entries = v)

include h

/-- What is accepted in settings with one field is what is accepted among others. -/
theorem alone_eq_ok_iff {t : Settings} :
    alone field v = .ok t ↔
      (if field = "strict_loops" then strictField entries else .ok false) = .ok t.strictLoops ∧
      (if field = "cell_bits" then widthField entries else .ok CellWidth.widest) =
        .ok ⟨t.cellBits, t.le_cellBits, t.cellBits_le⟩ ∧
      (if field = "overflow" then overflowField entries else .ok .wrap) = .ok t.overflow ∧
      (if field = "trace" then traceField entries else .ok false) = .ok t.trace := by
  obtain ⟨hstrict, hwidth, hoverflow, htrace⟩ := fields_alone h
  rw [alone, ofEntries_eq_ok_iff, hstrict, hwidth, hoverflow, htrace]

theorem complaints_alone :
    (alone field v).complaints =
      (if field = "strict_loops" then (strictField entries).complaints else []) ++
      (if field = "cell_bits" then (widthField entries).complaints else []) ++
      ((if field = "overflow" then (overflowField entries).complaints else []) ++
      (if field = "trace" then (traceField entries).complaints else [])) := by
  obtain ⟨hstrict, hwidth, hoverflow, htrace⟩ := fields_alone h
  rw [alone, complaints_ofEntries, hstrict, hwidth, hoverflow, htrace]
  simp only [Checked.complaints_ite]

theorem sameIn_of_alone {t : Settings} (hs : ofEntries entries = .ok s) (ht : alone field v = .ok t) :
    SameIn field s t := by
  obtain ⟨hstrict, hwidth, hoverflow, htrace⟩ := ofEntries_eq_ok_iff.1 hs
  obtain ⟨h₁, h₂, h₃, h₄⟩ := (alone_eq_ok_iff h).1 ht
  refine ⟨?_, ?_, ?_, ?_⟩ <;> intro hfield
  · rw [if_pos hfield, hstrict] at h₁
    exact Except.ok.inj h₁
  · rw [if_pos hfield, hwidth] at h₂
    exact congrArg Subtype.val (Except.ok.inj h₂)
  · rw [if_pos hfield, hoverflow] at h₃
    exact Except.ok.inj h₃
  · rw [if_pos hfield, htrace] at h₄
    exact Except.ok.inj h₄

end Alone

/-- Settings are accepted if each of their fields is accepted alone. -/
theorem ofEntries_accepted_iff {value : String → String → Option Value}
    (h : ∀ f ∈ fieldVariables, Value.lookup? f.1 entries = value f.1 f.2) :
    (∃ s, ofEntries entries = .ok s) ↔ ∀ f ∈ fieldVariables, ∃ t, alone f.1 (value f.1 f.2) = .ok t := by
  simp only [fieldVariables, List.forall_mem_cons, List.not_mem_nil, false_imp_iff, implies_true,
    and_true] at h ⊢
  obtain ⟨h₁, h₂, h₃, h₄⟩ := h
  constructor
  · rintro ⟨s, hs⟩
    obtain ⟨hstrict, hwidth, hoverflow, htrace⟩ := ofEntries_eq_ok_iff.1 hs
    refine ⟨⟨{ strictLoops := s.strictLoops }, ?_⟩,
      ⟨⟨false, s.cellBits, .wrap, false, s.le_cellBits, s.cellBits_le⟩, ?_⟩,
      ⟨{ overflow := s.overflow }, ?_⟩, ⟨{ trace := s.trace }, ?_⟩⟩
    · rw [alone_eq_ok_iff h₁]
      simpa [CellWidth.widest] using hstrict
    · rw [alone_eq_ok_iff h₂]
      simpa using hwidth
    · rw [alone_eq_ok_iff h₃]
      simpa [CellWidth.widest] using hoverflow
    · rw [alone_eq_ok_iff h₄]
      simpa [CellWidth.widest] using htrace
  · rintro ⟨⟨t₁, ht₁⟩, ⟨t₂, ht₂⟩, ⟨t₃, ht₃⟩, ⟨t₄, ht₄⟩⟩
    refine ⟨⟨t₁.strictLoops, t₂.cellBits, t₃.overflow, t₄.trace, t₂.le_cellBits, t₂.cellBits_le⟩, ?_⟩
    rw [ofEntries_eq_ok_iff]
    exact ⟨((alone_eq_ok_iff h₁).1 ht₁).1, ((alone_eq_ok_iff h₂).1 ht₂).2.1,
      ((alone_eq_ok_iff h₃).1 ht₃).2.2.1, ((alone_eq_ok_iff h₄).1 ht₄).2.2.2⟩

/-- The complaints about settings are those about their fields alone. -/
theorem complaints_eq_flatMap {value : String → String → Option Value}
    (h : ∀ f ∈ fieldVariables, Value.lookup? f.1 entries = value f.1 f.2) :
    (ofEntries entries).complaints =
      fieldVariables.flatMap fun f => (alone f.1 (value f.1 f.2)).complaints := by
  simp only [fieldVariables, List.forall_mem_cons, List.not_mem_nil, false_imp_iff, implies_true,
    and_true] at h ⊢
  obtain ⟨h₁, h₂, h₃, h₄⟩ := h
  simp [complaints_alone h₁, complaints_alone h₂, complaints_alone h₃, complaints_alone h₄,
    complaints_ofEntries]

/-- Settings are checked field by field. -/
theorem ofEntries_field_by_field {value : String → String → Option Value}
    (h : ∀ f ∈ fieldVariables, Value.lookup? f.1 entries = value f.1 f.2) :
    FieldByField value ((check (.mapping entries)).mapError .rejected) := by
  have hcheck : check (.mapping entries) = (ofEntries entries).mapError (⟨title, ·⟩) := rfl
  have haccepted := ofEntries_accepted_iff h
  have hcomplaints := complaints_eq_flatMap h
  rw [hcheck]
  cases hs : ofEntries entries with
  | ok s =>
    rw [hs] at haccepted
    refine ⟨?_, ?_, ?_⟩
    · rw [← haccepted]
      exact ⟨fun _ => ⟨s, rfl⟩, fun _ => ⟨s, rfl⟩⟩
    · intro s' hs' f hf t ht
      cases Except.ok.inj hs'
      exact sameIn_of_alone (h f hf) hs ht
    · intro r hr
      cases hr
  | error cs =>
    rw [hs] at haccepted hcomplaints
    refine ⟨?_, ?_, ?_⟩
    · rw [← haccepted]
      simp [Except.mapError]
    · intro s' hs'
      cases hs'
    · intro r hr
      cases hr
      exact hcomplaints

/-! ### Loading -/

variable {files : EnvFiles} {loaded : Loaded}

/-- Loading settings with the entries `raw` of a document: without a document or with an empty one there
are none. -/
inductive Loads (files : EnvFiles) (env : Environment) (overrides : List (String × Value)) :
    List (Value × Value) → Loaded → Prop where
  | without : Loads files env overrides [] (load files env overrides)
  | empty {bytes : List UInt8} {text : List Char} (decoded : Utf8.decode bytes = .ok text)
      (parsed : Yaml.parse (unifyNewlines text) = .ok .null) :
      Loads files env overrides [] (loadDocument bytes files env overrides)
  | mapping {bytes : List UInt8} {text : List Char} {raw : List (Value × Value)}
      (decoded : Utf8.decode bytes = .ok text)
      (parsed : Yaml.parse (unifyNewlines text) = .ok (.mapping raw))
      (fields : ∀ e ∈ raw, ∃ field ∈ fieldNames, e.1 = .text (Text.ofString field)) :
      Loads files env overrides raw (loadDocument bytes files env overrides)

theorem Loads.eq_loadWith (h : Loads files env overrides raw loaded) :
    loaded = loadWith raw files env overrides := by
  cases h with
  | without => rfl
  | empty decoded parsed =>
    have hread : readDocument _ = .ok [] := readDocument_of_parse decoded parsed
    rw [loadDocument, hread]
  | mapping decoded parsed fields =>
    have hread := readDocument_of_parse decoded parsed
    rw [documentEntries_of_fields fun e he => isField_iff.2 (fields e he)] at hread
    rw [loadDocument, hread]

theorem check_layers (env : Environment) (raw : List (Value × Value))
    (overrides : List (String × Value)) :
    check (.mapping (environmentLayer env ++ raw ++ overrideLayer overrides)) =
      check (.mapping (resolved env raw overrides)) := by
  have hentries : ofEntries (environmentLayer env ++ raw ++ overrideLayer overrides) =
      ofEntries (resolved env raw overrides) := by
    apply ofEntries_congr
    intro f hf
    rw [lookup?_layers hf, lookup?_resolved hf]
  change (ofEntries _).mapError _ = (ofEntries _).mapError _
  rw [hentries]

/-- Settings are the check of one value for each field, that of the highest layer that sets it. The
environment is afterwards what it was, and those variables of the one file that is read which it did not
have. If one of these cannot be set, loading fails there, and the environment has those before it. If the
file is not UTF-8, loading fails before any variable is added. -/
theorem layers_resolve_field_by_field (h : Loads files env overrides raw loaded) :
    (∀ bytes, files.Chooses bytes → env.filesOff = false →
      env.readVariables files =
        (Utf8.decode bytes).map fun chars => env.fileValues (String.ofList chars)) ∧
    ((¬ ∃ bytes, files.Chooses bytes) ∨ env.filesOff = true → env.readVariables files = .ok []) ∧
    (∀ e, env.readVariables files = .error e →
      loaded.env = env ∧ loaded.result = .error (.unreadable e)) ∧
    ∀ vars, env.readVariables files = .ok vars →
      (env.CanAdd vars →
        env.Adds vars loaded.env ∧
        loaded.result = (check (.mapping (resolved loaded.env raw overrides))).mapError .rejected ∧
        FieldByField (resolve loaded.env raw overrides) loaded.result) ∧
      (¬ env.CanAdd vars →
        ∃ e before name value after,
          vars = before ++ (name, some value) :: after ∧
          env.get? name = none ∧ ¬ Environment.Settable name value ∧
          env.CanAdd before ∧ env.Adds before loaded.env ∧ loaded.result = .error (.unsettable e)) := by
  rw [h.eq_loadWith]
  refine ⟨fun _ => Environment.readVariables_of_chooses, Environment.readVariables_eq_nil, ?_⟩
  unfold Environment.readVariables
  cases htext : env.textOf files with
  | error e =>
    refine ⟨fun e' he => ?_, fun vars hvars => ?_⟩
    · cases he
      simp only [loadWith, htext, and_self]
    · cases hvars
  | ok text =>
    refine ⟨fun e' he => ?_, fun vars hvars => ?_⟩
    · cases he
    cases hvars
    obtain ⟨herror, hadds, hcan⟩ |
        ⟨e, before, name, value, after, herror, hvars, hget, hnot, hadds, hcan⟩ := env.addText_cases text
    · refine ⟨fun _ => ?_, fun hnot => absurd hcan hnot⟩
      simp only [loadWith, htext, herror, check_layers]
      exact ⟨hadds, trivial, ofEntries_field_by_field fun f hf => lookup?_resolved hf⟩
    · constructor
      · intro hall
        exact absurd (hall name value (by simp [hvars]) hget) hnot
      · intro _
        simp only [loadWith, htext, herror]
        exact ⟨e, before, name, value, after, hvars, hget, hnot, hcan, hadds, rfl⟩

/-- The field and the integer of a mapping that holds nothing else. -/
def soleInteger? : Except Yaml.Error Value → Option (Text × Int)
  | .ok (.mapping [(.text field, .int n)]) => some (field, n)
  | _ => none

theorem eq_of_soleInteger? {r : Except Yaml.Error Value} {field : Text} {n : Int}
    (h : soleInteger? r = some (field, n)) : r = .ok (.mapping [(.text field, .int n)]) := by
  unfold soleInteger? at h
  split at h
  · cases h
    rfl
  · cases h

/-- Every layer sets a field: the file the first, the document `cell_bits: 8` the second, though the file
sets it too, and the overrides the third. The empty variable hides that of the file. -/
theorem layers_resolve_field_by_field_mixed :
    let bytes : List UInt8 := "cell_bits: 8\n".toUTF8.data.toList
    let files : EnvFiles :=
      { project :=
          some "BFVM_CELL_BITS=x\nBFVM_TRACE=1\nBFVM_STRICT_LOOPS=' true'\n".toUTF8.data.toList }
    let env : Environment := [("BFVM_TRACE", "")]
    let overrides : List (String × Value) :=
      [("overflow", .text (Text.ofString "TRAP")), ("trace", .null)]
    let raw := [Value.named "cell_bits" (.int 8)]
    let loaded := loadDocument bytes files env overrides
    let vars := [("BFVM_CELL_BITS", some "x"), ("BFVM_TRACE", some "1"),
      ("BFVM_STRICT_LOOPS", some " true")]
    Loads files env overrides raw loaded ∧ env.readVariables files = .ok vars ∧ env.CanAdd vars ∧
    loaded.result.toOption = some { strictLoops := true, cellBits := 8, overflow := .trap } ∧
    env.Adds vars loaded.env ∧
    loaded.result = (check (.mapping (resolved loaded.env raw overrides))).mapError .rejected ∧
    FieldByField (resolve loaded.env raw overrides) loaded.result := by
  intro bytes files env overrides raw loaded vars
  have hdecoded : Utf8.decode bytes = .ok "cell_bits: 8\n".toList := by decide +kernel
  have hparsed : Yaml.parse (unifyNewlines "cell_bits: 8\n".toList) = .ok (.mapping raw) :=
    eq_of_soleInteger? (by decide +kernel)
  have hloads : Loads files env overrides raw loaded := by
    refine .mapping hdecoded hparsed ?_
    intro e he
    exact ⟨"cell_bits", by decide, by rw [List.mem_singleton.1 he, Value.named]⟩
  have hvars : env.readVariables files = .ok vars := by decide +kernel
  have hcan : env.CanAdd vars := by
    intro name value hmem _
    simp only [vars, List.mem_cons, List.not_mem_nil, or_false, Prod.mk.injEq, Option.some.injEq] at hmem
    rcases hmem with ⟨rfl, rfl⟩ | ⟨rfl, rfl⟩ | ⟨rfl, rfl⟩ <;>
      exact ⟨by decide, by decide, by decide⟩
  have hresult := ((layers_resolve_field_by_field hloads).2.2.2 vars hvars).1 hcan
  exact ⟨hloads, hvars, hcan, by decide +kernel, hresult⟩

/-- Not every file is added. If the environment turns the reading off, nothing is; a variable that cannot
be set keeps those after it from being added, and is an error whatever the fields are; so is a file that
is not UTF-8. -/
theorem file_not_added_when_off_unsettable_or_undecodable :
    (let text := "BFVM_CELL_BITS=8\n"
    let files : EnvFiles := { project := some text.toUTF8.data.toList }
    let env : Environment := [("PYTHON_DOTENV_DISABLED", "1")]
    files.Reads text ∧ ¬ env.Adds (env.fileValues text) (load files env []).env) ∧
    (let text := "'A=B'=1\nBFVM_CELL_BITS=8\n"
    let files : EnvFiles := { project := some text.toUTF8.data.toList }
    let env : Environment := []
    files.Reads text ∧ ¬ env.Adds (env.fileValues text) (load files env []).env ∧
      ∀ env', (load files env []).result ≠
        (check (.mapping (resolved env' [] []))).mapError .rejected) ∧
    (let files : EnvFiles := { project := some [0xFF] }
    files.Chooses [0xFF] ∧
      ∀ env', (load files [] []).result ≠
        (check (.mapping (resolved env' [] []))).mapError .rejected) := by
  have hreads : ∀ text : String, EnvFiles.Reads { project := some text.toUTF8.data.toList } text :=
    fun text => (EnvFiles.Chooses.project rfl).reads
  refine ⟨⟨hreads _, fun hadds => ?_⟩, ⟨hreads _, fun hadds => ?_, fun env' hresult => ?_⟩, .project rfl,
    fun env' hresult => ?_⟩
  · have h := hadds "BFVM_CELL_BITS"
    revert h
    decide +kernel
  · have h := hadds "BFVM_CELL_BITS"
    revert h
    decide +kernel
  · have htext : Environment.textOf [] _ = .ok (some "'A=B'=1\nBFVM_CELL_BITS=8\n") :=
      Environment.textOf_of_reads (hreads _) rfl
    have herror : (Environment.addText [] (some "'A=B'=1\nBFVM_CELL_BITS=8\n")).error =
        some .illegalName := by decide +kernel
    simp only [load, loadWith, htext, herror] at hresult
    obtain ⟨r, hr⟩ := exists_rejected hresult.symm
    cases hr
  · have htext : Environment.textOf [] { project := some [0xFF] } =
        .error ⟨0xFF, 0, 1, .invalidStart⟩ := by decide +kernel
    simp only [load, loadWith, htext] at hresult
    obtain ⟨r, hr⟩ := exists_rejected hresult.symm
    cases hr

end Settings

end TapeMachine
