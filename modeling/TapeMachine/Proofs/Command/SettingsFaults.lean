import TapeMachine.Command.Transcript
import TapeMachine.Proofs.Settings.Document

/-!
Settings that cannot be loaded. A command reports what is wrong with them, unless it is in the text of the
settings document and of one of seven kinds (`Malformed`), or keys of the document that are no fields are
not of one kind (`settings_faults_reported_unless_escaping`).
-/
namespace TapeMachine.Command

open Settings

set_option maxRecDepth 2000

variable {w : World} {r : RunRequest} {path : Path} {bytes : List UInt8} {files : EnvFiles}
  {env : Environment} {changes : List (String × Value)} {e : LoadError} {loaded : Loaded}

/-- The faults of a document's text that are not reported. -/
def Malformed (e : Yaml.Error) : Prop :=
  e = .malformed ∨ e = .codePointSize ∨ e = .floatPlaces ∨ e = .emptyNumber ∨ e = .timestamp ∨
    e = .timestampMapping ∨ ∃ t, e = .boolean t

/-- What is wrong with a settings document that no command reports. -/
inductive Escapes (bytes : List UInt8) : LoadError → Prop where
  | document {text : List Char} {e : Yaml.Error} (decoded : Utf8.decode bytes = .ok text)
      (parsed : Yaml.parse (unifyNewlines text) = .error e) (malformed : Malformed e) :
      Escapes bytes (.document e)
  | keys {text : List Char} {raw : List (Value × Value)} {a b : Value}
      (decoded : Utf8.decode bytes = .ok text)
      (parsed : Yaml.parse (unifyNewlines text) = .ok (.mapping raw))
      (unknown : [a, b].Sublist (unknownKeys raw)) (unlike : ¬ Value.Alike a b) :
      Escapes bytes .unsortableKeys

theorem isReported_document (e : Yaml.Error) : isReported (.document e) = false ↔ Malformed e := by
  cases e <;> simp [isReported, Malformed]

theorem Escapes.isReported_eq_false (h : Escapes bytes e) : isReported e = false := by
  cases h with
  | document _ _ malformed => exact (isReported_document _).2 malformed
  | keys => rfl

theorem Escapes.readDocument_eq (h : Escapes bytes e) : readDocument bytes = .error e := by
  cases h with
  | document decoded parsed _ => exact readDocument_of_parse_error decoded parsed
  | keys decoded parsed unknown unlike =>
    rw [readDocument_of_parse decoded parsed, documentEntries_of_unlike unknown unlike]

/-- What is not reported about a document is one of these faults. -/
theorem escapes_of_readDocument (h : readDocument bytes = .error e) (he : isReported e = false) :
    Escapes bytes e := by
  obtain ⟨_, hread⟩ | ⟨text, hdecoded, ⟨fault, hparsed, hread⟩ | ⟨v, hparsed, hread⟩⟩ :=
    readDocument_cases bytes
  · cases Except.error.inj (hread.symm.trans h)
    cases he
  · cases Except.error.inj (hread.symm.trans h)
    exact .document hdecoded hparsed ((isReported_document fault).1 he)
  · have hentries := hread.symm.trans h
    obtain ⟨_, hcase⟩ | hcase | ⟨_, hcase⟩ | ⟨raw, a, b, rfl, hkeys, hunlike, hcase⟩ :=
      documentEntries_cases v
    · cases hcase.symm.trans hentries
    · cases Except.error.inj (hcase.symm.trans hentries)
      cases he
    · cases Except.error.inj (hcase.symm.trans hentries)
      cases he
    · cases Except.error.inj (hcase.symm.trans hentries)
      exact .keys hdecoded hparsed hkeys hunlike

/-- With a document that can be read, every fault is reported. -/
theorem isReported_of_loadWith {entries : List (Value × Value)}
    (h : (loadWith entries files env changes).result = .error e) : isReported e = true := by
  unfold loadWith at h
  cases htext : env.textOf files with
  | error fault =>
    rw [htext] at h
    cases h
    rfl
  | ok text =>
    simp only [htext] at h
    cases herror : (env.addText text).error with
    | some fault =>
      rw [herror] at h
      cases h
      rfl
    | none =>
      rw [herror] at h
      obtain ⟨r, rfl⟩ := exists_rejected h
      rfl

theorem Escapes.loadDocument_eq (h : Escapes bytes e) :
    loadDocument bytes files env changes = ⟨.error e, env, []⟩ := by
  rw [loadDocument, h.readDocument_eq]

/-- Of the faults in loading settings with a document, exactly those that escape are not reported. -/
theorem isReported_eq_false_iff (h : (loadDocument bytes files env changes).result = .error e) :
    isReported e = false ↔ Escapes bytes e := by
  refine ⟨fun he => ?_, Escapes.isReported_eq_false⟩
  unfold loadDocument at h
  cases hread : readDocument bytes with
  | ok entries =>
    rw [hread] at h
    rw [isReported_of_loadWith h] at he
    cases he
  | error fault =>
    rw [hread] at h
    cases h
    exact escapes_of_readDocument hread he

/-! ### The command -/

/-- What is printed about the statements of a file of variables that cannot be read. -/
def warningsOf (loaded : Loaded) : String := String.join (loaded.malformed.map EnvFile.warning)

theorem loadSettings_of_read (hconfig : r.config = some path) (hread : w.read path = .ok bytes) :
    loadSettings w r = .ok (loadDocument bytes w.envFiles w.env (overrides r)) := by
  simp only [loadSettings, hconfig, hread]

theorem prepare_of_error (hload : loadSettings w r = .ok loaded) (he : loaded.result = .error e) :
    prepare w r = .error
      (if isReported e then report 1 (warningsOf loaded ++ "invalid settings: " ++ e.message ++ "\n")
      else { stderr := warningsOf loaded, ending := .escaped (.settings e) }) := by
  rw [prepare, hload]
  change (loaded.result.mapError _ >>= _) = _
  rw [he]
  rfl

/-- A command goes on with settings: it has them in its job, unless the program or its input cannot be
read. -/
def GoesOn (w : World) (r : RunRequest) (loaded : Loaded) (s : Settings) : Prop :=
  (∃ job, prepare w r = .ok job ∧ job.settings = s ∧ job.warnings = warningsOf loaded) ∨
  (∃ f, w.read r.program = .error f ∧ prepare w r =
    .error { stderr := warningsOf loaded, ending := .escaped (.file r.program f) }) ∨
  ∃ message, inputOf w r.input = .error message ∧
    prepare w r = .error (report 1 (warningsOf loaded ++ message))

theorem goesOn_of_ok {s : Settings} (hload : loadSettings w r = .ok loaded)
    (hs : loaded.result = .ok s) : GoesOn w r loaded s := by
  have hprepare : prepare w r = (do
      let bytes ← (w.read r.program).mapError fun f =>
        { stderr := warningsOf loaded, ending := .escaped (.file r.program f) }
      let input ← (inputOf w r.input).mapError fun message => report 1 (warningsOf loaded ++ message)
      return { settings := s, input, warnings := warningsOf loaded, program := Program.ofBytes bytes,
               path := r.program, dumpTape := r.dumpTape }) := by
    rw [prepare, hload]
    change (loaded.result.mapError _ >>= _) = _
    rw [hs]
    rfl
  unfold GoesOn
  rw [hprepare]
  cases hprogram : w.read r.program with
  | error f => exact .inr (.inl ⟨f, rfl, rfl⟩)
  | ok program =>
    cases hinput : inputOf w r.input with
    | error message => exact .inr (.inr ⟨message, rfl, rfl⟩)
    | ok input => exact .inl ⟨_, rfl, rfl, rfl⟩

/-- What is wrong with settings is reported, unless the text of the document is malformed or it has keys of
several kinds that are no fields. Such faults escape: nothing is loaded, and the command ends with the
fault. -/
theorem settings_faults_reported_unless_escaping (bytes : List UInt8) :
    (∀ files env changes e, (loadDocument bytes files env changes).result = .error e →
      (isReported e = false ↔ Escapes bytes e)) ∧
    (∀ files env changes e, Escapes bytes e →
      loadDocument bytes files env changes = ⟨.error e, env, []⟩) ∧
    ∀ (w : World) (r : RunRequest) (path : Path) (fuel : Nat),
      r.config = some path → w.read path = .ok bytes →
      let loaded := loadDocument bytes w.envFiles w.env (overrides r)
      (∀ s, loaded.result = .ok s → GoesOn w r loaded s) ∧
      (∀ e, loaded.result = .error e → ¬ Escapes bytes e →
        perform w (.run r) fuel =
          some (report 1 (warningsOf loaded ++ "invalid settings: " ++ e.message ++ "\n"))) ∧
      ∀ e, Escapes bytes e → perform w (.run r) fuel = some { ending := .escaped (.settings e) } := by
  refine ⟨fun _ _ _ _ => isReported_eq_false_iff, fun _ _ _ _ => Escapes.loadDocument_eq, ?_⟩
  intro w r path fuel hconfig hread loaded
  have hload : loadSettings w r = .ok loaded := loadSettings_of_read hconfig hread
  refine ⟨fun s hs => goesOn_of_ok hload hs, ?_, ?_⟩
  · intro e he hnot
    have hreported : isReported e = true := by
      rw [← Bool.not_eq_false, isReported_eq_false_iff he]
      exact hnot
    simp only [perform, prepare_of_error hload he, hreported, if_true]
  · intro e hescapes
    have hloaded : loaded = ⟨.error e, w.env, []⟩ := hescapes.loadDocument_eq
    have he : loaded.result = .error e := by rw [hloaded]
    have hwarnings : warningsOf loaded = "" := by
      rw [hloaded]
      rfl
    simp only [perform, prepare_of_error hload he, hescapes.isReported_eq_false, hwarnings]
    rfl

/-- A mapping with the keys `1` and `foo`, which cannot be listed in order. -/
def unlikeKeys : List UInt8 := [49, 58, 32, 50, 10, 102, 111, 111, 58, 32, 51, 10]

theorem escapes_unlikeKeys : Escapes unlikeKeys .unsortableKeys := by
  have hread : readDocument unlikeKeys = .error .unsortableKeys := by
    have hview : (match readDocument unlikeKeys with
        | .error .unsortableKeys => true
        | _ => false) = true := by decide +kernel
    split at hview
    · assumption
    · cases hview
  exact escapes_of_readDocument hread rfl

/-- A world with a program and a settings document. -/
def configured (document : List UInt8) : World where
  entry path :=
    if path = Path.ofText (Text.ofString "c.yaml") then some (.file document)
    else if path = Path.ofText (Text.ofString "p.b") then some (.file [91, 62, 93, 43, 46])
    else none
  obstacle _ := none

/-- The request of the command `run p.b --config c.yaml`. -/
def configuredRun : RunRequest where
  program := Path.ofText (Text.ofString "p.b")
  config := some (Path.ofText (Text.ofString "c.yaml"))

/-- The document `7` is reported to be no mapping, but unlike keys are not reported. -/
theorem settings_faults_reported_unless_escaping_both :
    perform (configured [55]) (.run configuredRun) 0 =
      some (report 1 "invalid settings: settings file must be a YAML mapping\n") ∧
    Escapes unlikeKeys .unsortableKeys ∧
    perform (configured unlikeKeys) (.run configuredRun) 0 =
      some { ending := .escaped (.settings .unsortableKeys) } := by
  have hread : readDocument [55] = .error .notMapping := by
    have hview : (match readDocument [55] with
        | .error .notMapping => true
        | _ => false) = true := by decide +kernel
    split at hview
    · assumption
    · cases hview
  have hloaded : loadDocument [55] (configured [55]).envFiles (configured [55]).env
      (overrides configuredRun) = ⟨.error .notMapping, [], []⟩ := by
    rw [loadDocument, hread]
    rfl
  have hnot : ¬ Escapes [55] .notMapping := fun h => by cases h
  have hreported := ((settings_faults_reported_unless_escaping [55]).2.2 (configured [55])
    configuredRun _ 0 rfl rfl).2.1 .notMapping (by rw [hloaded]) hnot
  have hmessage : warningsOf ⟨.error .notMapping, [], []⟩ ++ "invalid settings: " ++
      LoadError.message .notMapping ++ "\n" =
        "invalid settings: settings file must be a YAML mapping\n" := by decide +kernel
  rw [hloaded, hmessage] at hreported
  refine ⟨hreported, escapes_unlikeKeys, ?_⟩
  exact ((settings_faults_reported_unless_escaping unlikeKeys).2.2 (configured unlikeKeys)
    configuredRun _ 0 rfl rfl).2.2 .unsortableKeys escapes_unlikeKeys

/-- Settings with unlike keys or with an open brace fail with what is no error of settings, and the
command `run p.b --config c.yaml` ends with it. -/
theorem unlike_keys_and_open_brace_unreported :
    (∃ e, (loadDocument unlikeKeys {} [] []).result = .error e ∧ isReported e = false) ∧
    (∃ e, (loadDocument [123] {} [] []).result = .error e ∧ isReported e = false) ∧
    ∃ t e, execute (configured unlikeKeys) (["run", "p.b", "--config", "c.yaml"].map Text.ofString) 0 =
      some t ∧ t.ending = .escaped (.settings e) := by
  refine ⟨⟨.unsortableKeys, ?_, rfl⟩, ?_, ?_⟩
  · rw [escapes_unlikeKeys.loadDocument_eq]
  · have hview : (match (loadDocument [123] {} [] []).result with
        | .error e => !isReported e
        | .ok _ => false) = true := by decide +kernel
    split at hview
    · next e he => exact ⟨e, he, by simpa using hview⟩
    · cases hview
  · have hrequest : Request.read (configured unlikeKeys)
        (["run", "p.b", "--config", "c.yaml"].map Text.ofString) = .run configuredRun := rfl
    have hload : loadSettings (configured unlikeKeys) configuredRun =
        .ok ⟨.error .unsortableKeys, [], []⟩ := by
      rw [loadSettings_of_read rfl rfl, escapes_unlikeKeys.loadDocument_eq]
      rfl
    refine ⟨{ ending := .escaped (.settings .unsortableKeys) }, .unsortableKeys, ?_, rfl⟩
    rw [execute, hrequest, perform, prepare_of_error hload rfl]
    rfl

end TapeMachine.Command
