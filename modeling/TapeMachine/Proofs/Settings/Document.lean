import Mathlib.Data.List.Pairwise
import TapeMachine.Settings.Document

/-!
Settings documents. A document is decoded, parsed, and has to be a mapping whose keys are fields; it can
fail at each of these (`Settings.readDocument_cases`, `Settings.documentEntries_cases`). Keys that are no
fields are listed in order, so they are listed only if they are of one kind
(`Value.sortKeys?_eq_none_iff`).
-/
namespace TapeMachine

namespace Value

/-! ### Kinds of keys -/

/-- The kinds of values that have an order. -/
inductive KeyKind where
  | number | text | bytes | date
  | moment (zoned : Bool)
  deriving DecidableEq

def keyKind? : Value → Option KeyKind
  | .bool _ | .int _ | .float _ => some .number
  | .text _ => some .text
  | .bytes _ => some .bytes
  | .date _ => some .date
  | .moment m => some (.moment m.offset.isSome)
  | _ => none

/-- Whether two values are of one kind that has an order. -/
def Alike (a b : Value) : Prop := a.keyKind?.isSome ∧ a.keyKind? = b.keyKind?

instance (a b : Value) : Decidable (Alike a b) :=
  inferInstanceAs (Decidable (a.keyKind?.isSome ∧ a.keyKind? = b.keyKind?))

theorem Alike.symm {a b : Value} (h : Alike a b) : Alike b a := ⟨h.2 ▸ h.1, h.2.symm⟩

theorem Alike.refl_of {a b : Value} (h : Alike a b) : Alike a a := ⟨h.1, rfl⟩

theorem isSome_size?_iff (v : Value) : v.size?.isSome = true ↔ v.keyKind? = some .number := by
  cases v with
  | float x => cases x <;> simp [size?, keyKind?, Binary64.toRatio?]
  | _ => simp [size?, keyKind?]

/-- Exactly the values of one kind have an order. -/
theorem isSome_keyOrder?_iff (a b : Value) : (keyOrder? a b).isSome = true ↔ Alike a b := by
  have ha := isSome_size?_iff a
  have hb := isSome_size?_iff b
  unfold keyOrder? Alike
  split
  · next hsa hsb =>
    rw [hsa] at ha
    rw [hsb] at hb
    simp [ha.1 rfl, hb.1 rfl]
  · next hnumbers =>
    -- Not both are numbers, so it is enough to look at the other kinds.
    have hnot : ¬ (a.keyKind? = some .number ∧ b.keyKind? = some .number) := by
      rintro ⟨hka, hkb⟩
      obtain ⟨x, hx⟩ := Option.isSome_iff_exists.1 (ha.2 hka)
      obtain ⟨y, hy⟩ := Option.isSome_iff_exists.1 (hb.2 hkb)
      exact hnumbers x y hx hy
    clear ha hb hnumbers
    split
    · simp [keyKind?]
    · simp [keyKind?]
    · simp [keyKind?]
    · split <;> simp_all [keyKind?]
    · next htext hbytes hdate hmoment =>
      cases a with
      | text s => cases b <;> simp_all [keyKind?]
      | bytes s => cases b <;> simp_all [keyKind?]
      | date d => cases b <;> simp_all [keyKind?]
      | moment m => cases b <;> simp_all [keyKind?]
      | bool x => cases b <;> simp_all [keyKind?]
      | int x => cases b <;> simp_all [keyKind?]
      | float x => cases b <;> simp_all [keyKind?]
      | _ => simp [keyKind?]

/-- If every key is like those after it, all are alike, unless there is only one. -/
theorem alike_of_pairwise {keys : List Value} (h : keys.Pairwise Alike) (hsole : ∀ k, keys ≠ [k]) :
    ∀ a ∈ keys, ∀ b ∈ keys, Alike a b := by
  have hself : ∀ a ∈ keys, Alike a a := by
    match keys, h, hsole with
    | [], _, _ => simp
    | [k], _, hsole => exact absurd rfl (hsole k)
    | k :: k' :: rest, h, _ =>
      intro a ha
      have hfirst := (List.pairwise_cons.1 h).1
      rcases List.mem_cons.1 ha with rfl | ha
      · exact (hfirst k' List.mem_cons_self).refl_of
      · exact (hfirst a ha).symm.refl_of
  have hsymm : Std.Symm Alike := ⟨fun _ _ => Alike.symm⟩
  intro a ha b hb
  exact h.forall_of_forall hself ha hb

/-- Keys cannot be sorted exactly if two of them are not of one kind. -/
theorem sortKeys?_eq_none_iff (keys : List Value) :
    sortKeys? keys = none ↔ ∃ a b, [a, b].Sublist keys ∧ ¬ Alike a b := by
  have hpairwise : (∃ a b, [a, b].Sublist keys ∧ ¬ Alike a b) ↔ ¬ keys.Pairwise Alike := by
    simp [List.pairwise_iff_forall_sublist]
  rw [hpairwise]
  unfold sortKeys?
  split
  · simp
  · next hsole =>
    have hall : (keys.all fun a => keys.all fun b => (keyOrder? a b).isSome) = true ↔
        keys.Pairwise Alike := by
      simp only [List.all_eq_true, isSome_keyOrder?_iff]
      constructor
      · intro h
        rw [List.pairwise_iff_forall_sublist]
        intro a b hab
        exact h a (hab.subset (by simp)) b (hab.subset (by simp))
      · intro h
        exact alike_of_pairwise h hsole
    rw [← hall]
    simp only [ite_eq_right_iff, reduceCtorEq, imp_false]

end Value

namespace Settings

variable {bytes : List UInt8} {text : List Char} {v : Value} {raw : List (Value × Value)}

/-- A check fails only in a rejection. -/
theorem exists_rejected {e : LoadError} (h : (check v).mapError .rejected = .error e) :
    ∃ r, e = .rejected r := by
  cases hcheck : check v with
  | ok s =>
    rw [hcheck] at h
    cases h
  | error r =>
    rw [hcheck] at h
    exact ⟨r, (Except.error.inj h).symm⟩

/-! ### Reading a document -/

theorem isField_iff {k : Value} :
    isField k = true ↔ ∃ field ∈ fieldNames, k = .text (Text.ofString field) := by
  cases k with
  | text t => simp [isField]
  | _ => simp [isField]

/-- The keys of a mapping that are no fields. -/
def unknownKeys (raw : List (Value × Value)) : List Value := (raw.map (·.1)).filter fun k => !isField k

theorem unknownKeys_eq_nil_iff : unknownKeys raw = [] ↔ ∀ e ∈ raw, isField e.1 = true := by
  simp [unknownKeys]

theorem readDocument_of_decode (htext : Utf8.decode bytes = .ok text) :
    readDocument bytes =
      ((Yaml.parse (unifyNewlines text)).mapError LoadError.document >>= documentEntries) := by
  rw [readDocument, htext]
  rfl

theorem readDocument_of_parse (htext : Utf8.decode bytes = .ok text)
    (hv : Yaml.parse (unifyNewlines text) = .ok v) : readDocument bytes = documentEntries v := by
  rw [readDocument_of_decode htext, hv]
  rfl

theorem readDocument_of_parse_error {e : Yaml.Error} (htext : Utf8.decode bytes = .ok text)
    (he : Yaml.parse (unifyNewlines text) = .error e) : readDocument bytes = .error (.document e) := by
  rw [readDocument_of_decode htext, he]
  rfl

/-- The stages of reading a document. -/
theorem readDocument_cases (bytes : List UInt8) :
    (∃ e, readDocument bytes = .error (.undecodable e)) ∨
    ∃ text, Utf8.decode bytes = .ok text ∧
      ((∃ e, Yaml.parse (unifyNewlines text) = .error e ∧ readDocument bytes = .error (.document e)) ∨
      ∃ v, Yaml.parse (unifyNewlines text) = .ok v ∧ readDocument bytes = documentEntries v) := by
  cases htext : Utf8.decode bytes with
  | error e =>
    refine .inl ⟨e, ?_⟩
    rw [readDocument, htext]
    rfl
  | ok text =>
    refine .inr ⟨text, rfl, ?_⟩
    cases hv : Yaml.parse (unifyNewlines text) with
    | error e => exact .inl ⟨e, rfl, readDocument_of_parse_error htext hv⟩
    | ok v => exact .inr ⟨v, rfl, readDocument_of_parse htext hv⟩

theorem documentEntries_of_fields (h : ∀ e ∈ raw, isField e.1 = true) :
    documentEntries (.mapping raw) = .ok raw := by
  have hnone : (raw.map (·.1)).filter (fun k => !isField k) = [] := unknownKeys_eq_nil_iff.2 h
  simp [documentEntries, hnone]

theorem documentEntries_of_unlike {a b : Value} (hkeys : [a, b].Sublist (unknownKeys raw))
    (hunlike : ¬ Value.Alike a b) : documentEntries (.mapping raw) = .error .unsortableKeys := by
  have hnone : Value.sortKeys? (unknownKeys raw) = none :=
    (Value.sortKeys?_eq_none_iff _).2 ⟨a, b, hkeys, hunlike⟩
  have hsome : (unknownKeys raw).isEmpty = false := by
    cases hunknown : unknownKeys raw with
    | nil => simp [hunknown] at hkeys
    | cons => rfl
  unfold unknownKeys at hnone hsome
  simp only [documentEntries, hnone, hsome]
  rfl

/-- What can be wrong with the value of a document. -/
theorem documentEntries_cases (v : Value) :
    (∃ entries, documentEntries v = .ok entries) ∨ documentEntries v = .error .notMapping ∨
    (∃ keys, documentEntries v = .error (.unknownKeys keys)) ∨
    ∃ raw a b, v = .mapping raw ∧ [a, b].Sublist (unknownKeys raw) ∧ ¬ Value.Alike a b ∧
      documentEntries v = .error .unsortableKeys := by
  cases v with
  | null => exact .inl ⟨[], rfl⟩
  | mapping raw =>
    by_cases hfields : unknownKeys raw = []
    · exact .inl ⟨raw, documentEntries_of_fields (unknownKeys_eq_nil_iff.1 hfields)⟩
    · cases hsort : Value.sortKeys? (unknownKeys raw) with
      | some keys =>
        refine .inr (.inr (.inl ⟨keys, ?_⟩))
        have hsome : (unknownKeys raw).isEmpty = false := by simpa using hfields
        unfold unknownKeys at hsort hsome
        simp only [documentEntries, hsort, hsome]
        rfl
      | none =>
        obtain ⟨a, b, hkeys, hunlike⟩ := (Value.sortKeys?_eq_none_iff _).1 hsort
        exact .inr (.inr (.inr ⟨raw, a, b, rfl, hkeys, hunlike, documentEntries_of_unlike hkeys hunlike⟩))
  | _ => exact .inr (.inl rfl)

end Settings

end TapeMachine
