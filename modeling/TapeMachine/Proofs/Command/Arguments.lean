import TapeMachine.Command.Request

/-!
Options of a command line that are given as `--name=value`. Such an argument is always read as that
option with that value, wherever it stands before two dashes; and if the option is given in no other
way, the request has the value (`Request.read_assigned`).
-/
namespace TapeMachine

theorem Text.splitAt?_append {p : CodePoint → Bool} {before : Text} {c : CodePoint}
    (hbefore : ∀ d ∈ before, p d = false) (hc : p c = true) (after : Text) :
    splitAt? p (before ++ c :: after) = some (before, c, after) := by
  induction before with
  | nil => simp [splitAt?, hc]
  | cons d before ih =>
    have hd := hbefore d (by simp)
    have hrest := ih fun e he => hbefore e (by simp [he])
    simp [splitAt?, hd, hrest]

namespace Item

variable {κ : Type} {table : List (String × κ)} {key : κ} {items : List (Item κ)} {a : Attached}

/-- Whether a text has no equals sign in it. -/
def Plain (t : Text) : Prop := ∀ c ∈ t, c.is '=' = false

/-- A text with an equals sign is not the name of an option. -/
theorem lookup?_assigned {name value : Text} (htable : ∀ e ∈ table, Plain (Text.ofString e.1)) :
    lookup? table (name ++ CodePoint.ofChar '=' :: value) = none := by
  have hnot : ∀ e ∈ table, Text.ofString e.1 ≠ name ++ CodePoint.ofChar '=' :: value := by
    intro e he heq
    have hsign := htable e he (CodePoint.ofChar '=') (by simp [heq])
    simp [CodePoint.is, CodePoint.ofChar] at hsign
  simpa [lookup?] using fun name key he => hnot (name, key) he

/-- A name with a value attached is read as the option of that name. -/
theorem ofText_assigned {name : Text} (value : Text) (hdash : name.head?.any (·.is '-') = true)
    (hname : Plain name) (htable : ∀ e ∈ table, Plain (Text.ofString e.1))
    (hkey : lookup? table name = some key) :
    ofText table (name ++ CodePoint.ofChar '=' :: value) = .ok (.option key (.value value)) := by
  have hhead : (name ++ CodePoint.ofChar '=' :: value).head?.any (·.is '-') = true := by
    cases name with
    | nil => simp at hdash
    | cons c name => exact hdash
  have hlength : (name ++ CodePoint.ofChar '=' :: value).length ≠ 1 := by
    cases name with
    | nil => simp at hdash
    | cons c name => simp
  have hsign : (CodePoint.ofChar '=').is '=' = true := by simp [CodePoint.is, CodePoint.ofChar]
  have hsplit := Text.splitAt?_append hname hsign value
  simp only [ofText, hhead, lookup?_assigned htable, hlength, hsplit, hkey, bind, Option.bind, pure,
    Bool.not_true, Bool.false_eq_true, ↓reduceIte]

/-- The arguments before two dashes, among which the options are. -/
def leading (arguments : List Text) : List Text := arguments.takeWhile (· ≠ Text.ofString "--")

theorem leading_cons {t : Text} (h : t ≠ Text.ofString "--") (rest : List Text) :
    leading (t :: rest) = t :: leading rest := by
  simp [leading, h]

/-- The first argument is read, then the others. -/
theorem ofTexts_cons {t : Text} {rest : List Text} (ht : t ≠ Text.ofString "--")
    (h : ofTexts table (t :: rest) = .ok items) :
    ∃ item more, ofText table t = .ok item ∧ ofTexts table rest = .ok more ∧
      items = item :: more := by
  rw [ofTexts, if_neg ht] at h
  cases hitem : ofText table t with
  | error e =>
    rw [hitem] at h
    cases h
  | ok item =>
    cases hrest : ofTexts table rest with
    | error e =>
      rw [hitem, hrest] at h
      cases h
    | ok more =>
      rw [hitem, hrest] at h
      exact ⟨item, more, rfl, rfl, (Except.ok.inj h).symm⟩

theorem ofTexts_dashes {rest : List Text}
    (h : ofTexts table (Text.ofString "--" :: rest) = .ok items) :
    items = .dashes :: rest.map .plain := by
  rw [ofTexts, if_pos rfl] at h
  exact (Except.ok.inj h).symm

/-- Every argument before two dashes is read on its own. -/
theorem mem_of_ofTexts {arguments : List Text} {t : Text}
    (h : ofTexts table arguments = .ok items) (ht : t ∈ leading arguments) :
    ∃ item ∈ items, ofText table t = .ok item := by
  induction arguments generalizing items with
  | nil => cases ht
  | cons u rest ih =>
    by_cases hu : u = Text.ofString "--"
    · simp [leading, hu] at ht
    · obtain ⟨item, more, hitem, hmore, rfl⟩ := ofTexts_cons hu h
      rw [leading_cons hu] at ht
      rcases List.mem_cons.1 ht with rfl | ht
      · exact ⟨item, by simp, hitem⟩
      · obtain ⟨found, hfound, hread⟩ := ih hmore ht
        exact ⟨found, by simp [hfound], hread⟩

/-- Options are found only among the arguments before two dashes. -/
theorem leading_of_mem_ofTexts {arguments : List Text} (h : ofTexts table arguments = .ok items)
    (hi : .option key a ∈ items) : ∃ t ∈ leading arguments, ofText table t = .ok (.option key a) := by
  induction arguments generalizing items with
  | nil =>
    cases Except.ok.inj h
    cases hi
  | cons u rest ih =>
    by_cases hu : u = Text.ofString "--"
    · subst hu
      simp [ofTexts_dashes h] at hi
    · obtain ⟨item, more, hitem, hmore, rfl⟩ := ofTexts_cons hu h
      rw [leading_cons hu]
      rcases List.mem_cons.1 hi with rfl | hi
      · exact ⟨u, by simp, hitem⟩
      · obtain ⟨t, ht, hread⟩ := ih hmore hi
        exact ⟨t, by simp [ht], hread⟩

end Item

namespace Event

variable {κ : Type} {takesValue : κ → Bool} {pending : Bool} {items : List (Item κ)} {key : κ}
  {t : Text}

theorem ofFlag_ne_value (k : κ) (a : Attached) : ofFlag k a ≠ .value key t := by
  cases a with
  | nothing | value => simp [ofFlag]
  | letters letters =>
    simp only [ofFlag]
    split <;> simp

/-- An option with its value attached has that value, unless an option before it lacks its own. -/
theorem value_mem_ofItems (hkey : takesValue key = true) (hi : .option key (.value t) ∈ items) :
    .value key t ∈ (ofItems takesValue pending items).1 ∨
      ∃ k, .valueMissing k ∈ (ofItems takesValue pending items).1 := by
  -- The items are taken from the left, one or two at a time; only an option without its value ends that.
  fun_induction ofItems takesValue pending items <;> grind

/-- A value comes from the argument of its option, or from the argument after it. -/
theorem option_mem_of_value (h : .value key t ∈ (ofItems takesValue pending items).1) :
    ∃ a, .option key a ∈ items ∧ (a = .value t ∨ a = .letters t ∨ a = .nothing) := by
  fun_induction ofItems takesValue pending items <;> grind [ofFlag_ne_value]

end Event

namespace Request

variable {w : World} {d d' : Draft} {events : List (Event RunOption)} {o : RunOption} {value : Text}

/-- The first argument is taken, then the others. -/
theorem taken_cons {e : Event RunOption} (h : (e :: events).foldlM (take w) d = .ok d') :
    ∃ d₁, take w d e = .ok d₁ ∧ events.foldlM (take w) d₁ = .ok d' := by
  rw [List.foldlM_cons] at h
  cases he : take w d e with
  | error x =>
    rw [he] at h
    cases h
  | ok d₁ =>
    rw [he] at h
    exact ⟨d₁, rfl, h⟩

/-- An argument that is taken is none that lacks its value. -/
theorem take_ne_valueMissing (h : events.foldlM (take w) d = .ok d') (k : RunOption) :
    .valueMissing k ∉ events := by
  induction events generalizing d with
  | nil => simp
  | cons e events ih =>
    obtain ⟨d₁, he, hrest⟩ := taken_cons h
    intro hk
    rcases List.mem_cons.1 hk with rfl | hk
    · simp [take] at he
    · exact ih hrest hk

/-- What the value of an option brings about, and no argument of another kind undoes, holds in the end if
the option was given and always had that value. -/
theorem foldlM_take {P : Draft → Prop} (hset : ∀ d d', take w d (.value o value) = .ok d' → P d')
    (hkeep : ∀ d d' e, (∀ t, e ≠ .value o t) → take w d e = .ok d' → P d → P d')
    (honly : ∀ t, .value o t ∈ events → t = value) (h : events.foldlM (take w) d = .ok d')
    (hgiven : P d ∨ .value o value ∈ events) : P d' := by
  induction events generalizing d with
  | nil =>
    cases Except.ok.inj h
    exact hgiven.resolve_right (by simp)
  | cons e events ih =>
    obtain ⟨d₁, he, hrest⟩ := taken_cons h
    refine ih (fun t ht => honly t (by simp [ht])) hrest ?_
    by_cases hval : ∃ t, e = .value o t
    · obtain ⟨t, rfl⟩ := hval
      have ht : t = value := honly t (by simp)
      exact .inl (hset d d₁ (ht ▸ he))
    · have hother : ∀ t, e ≠ .value o t := fun t ht => hval ⟨t, ht⟩
      rcases hgiven with hP | hmem
      · exact .inl (hkeep d d₁ e hother he hP)
      · rcases List.mem_cons.1 hmem with heq | hmem
        · exact absurd heq.symm (hother value)
        · exact .inr hmem

theorem take_input {t : Text} (h : take w d (.value .input t) = .ok d') :
    d'.request.input = .text t := by
  simp only [take, setOption] at h
  split at h <;> cases h
  rfl

/-- A file cannot take the place of a text. -/
theorem take_inputFile {t : Text} (h : take w d (.value .inputFile t) = .ok d') (u : Text) :
    d.request.input ≠ .text u := by
  simp only [take, setOption, bind, Except.bind] at h
  split at h
  · cases h
  · split at h
    · cases h
    next hne => exact hne u

theorem take_dumpTape {t : Text} (h : take w d (.value .dumpTape t) = .ok d') :
    d'.request.dumpTape = some (Path.ofText t) := by
  cases Except.ok.inj h
  rfl

/-- Only the two options for the input choose it, and only one option asks for a report. -/
theorem take_keeps {e : Event RunOption} (h : take w d e = .ok d') :
    ((∀ t, e ≠ .value .input t) → (∀ t, e ≠ .value .inputFile t) →
      d'.request.input = d.request.input) ∧
    ((∀ t, e ≠ .value .dumpTape t) → d'.request.dumpTape = d.request.dumpTape) := by
  cases e with
  | positional t =>
    simp only [take, bind, Except.bind] at h
    split at h <;> cases h
    exact ⟨fun _ _ => rfl, fun _ => rfl⟩
  | flag o => cases o <;> cases h <;> exact ⟨fun _ _ => rfl, fun _ => rfl⟩
  | valueMissing o => cases h
  | valueIgnored o t => cases h
  | value o t =>
    cases o with
    | input =>
      simp only [take, setOption] at h
      split at h <;> cases h
      exact ⟨fun hno => absurd rfl (hno t), fun _ => rfl⟩
    | inputFile =>
      simp only [take, setOption, bind, Except.bind] at h
      split at h
      · cases h
      · split at h <;> cases h
        exact ⟨fun _ hno => absurd rfl (hno t), fun _ => rfl⟩
    | cellBits | overflow =>
      simp only [take, setOption] at h
      split at h <;> cases h
      exact ⟨fun _ _ => rfl, fun _ => rfl⟩
    | config =>
      simp only [take, setOption, bind, Except.bind] at h
      split at h <;> cases h
      exact ⟨fun _ _ => rfl, fun _ => rfl⟩
    | dumpTape =>
      cases Except.ok.inj h
      exact ⟨fun _ _ => rfl, fun hno => absurd rfl (hno t)⟩
    | help | strictLoops | trace =>
      cases Except.ok.inj h
      exact ⟨fun _ _ => rfl, fun _ => rfl⟩

/-- A run is what its arguments ask for, with none left over. -/
theorem readRun_of_read {arguments : List Text} {r : RunRequest}
    (h : read w (Text.ofString "run" :: arguments) = .run r) : readRun w arguments = .ok (r, []) := by
  have hcommand : read w (Text.ofString "run" :: arguments) =
      ofCommand .run .run [] (readRun w arguments) := rfl
  rw [hcommand] at h
  cases hr : readRun w arguments with
  | error e => cases e <;> simp [hr, ofCommand] at h
  | ok a =>
    obtain ⟨r', extras⟩ := a
    simp only [hr, ofCommand] at h
    split at h
    next hnil =>
      cases h
      simpa using hnil
    next => cases h

/-- The arguments of a run are split into items, ordered as events, and taken one after another. -/
theorem taken_of_readRun {arguments extras : List Text} {r : RunRequest}
    (h : readRun w arguments = .ok (r, extras)) :
    ∃ items d, Item.ofTexts RunOption.table arguments = .ok items ∧
      (Event.ofItems RunOption.takesValue true items).1.foldlM (take w) {} = .ok d ∧
      r.input = d.request.input ∧ r.dumpTape = d.request.dumpTape := by
  rw [readRun] at h
  cases hitems : Item.ofTexts RunOption.table arguments with
  | error e =>
    rw [hitems] at h
    cases h
  | ok items =>
    rw [hitems] at h
    change ((Event.ofItems RunOption.takesValue true items).1.foldlM (take w) {} >>= _) = _ at h
    cases hd : (Event.ofItems RunOption.takesValue true items).1.foldlM (take w) {} with
    | error e =>
      rw [hd] at h
      cases h
    | ok d =>
      simp only [hd, bind, Except.bind] at h
      split at h <;> cases h
      exact ⟨items, d, rfl, hd, rfl, rfl⟩

/-- An option of a run is given as `--name=value`, and in no other way. -/
structure Assigns (arguments : List Text) (name : String) (o : RunOption) (value : Text) : Prop where
  given : Text.ofString name ++ CodePoint.ofChar '=' :: value ∈ Item.leading arguments
  only : ∀ t ∈ Item.leading arguments, ∀ a, Item.ofText RunOption.table t = .ok (.option o a) →
    t = Text.ofString name ++ CodePoint.ofChar '=' :: value

/-- The name of an option of a run begins with a dash, has no equals sign, and is found. -/
theorem names_table : ∀ e ∈ RunOption.table, (Text.ofString e.1).head?.any (·.is '-') = true ∧
    Item.Plain (Text.ofString e.1) ∧
    Item.lookup? RunOption.table (Text.ofString e.1) = some e.2 := by
  unfold Item.Plain
  decide +kernel

theorem ofText_option {name : String} (h : (name, o) ∈ RunOption.table) (value : Text) :
    Item.ofText RunOption.table (Text.ofString name ++ CodePoint.ofChar '=' :: value) =
      .ok (.option o (.value value)) := by
  obtain ⟨hdash, hplain, hkey⟩ := names_table _ h
  exact Item.ofText_assigned value hdash hplain (fun e he => (names_table e he).2.1) hkey

/-- An option that is given as `--name=value` has that value, wherever it stands. -/
theorem read_assigned {P : Draft → Prop} {arguments : List Text} {r : RunRequest} {name : String}
    (h : read w (Text.ofString "run" :: arguments) = .run r)
    (hvalue : Assigns arguments name o value)
    (hname : (name, o) ∈ RunOption.table) (ho : o.takesValue = true)
    (hset : ∀ d d', take w d (.value o value) = .ok d' → P d')
    (hkeep : ∀ d d' e, (∀ t, e ≠ .value o t) → take w d e = .ok d' → P d → P d') :
    ∃ d, P d ∧ r.input = d.request.input ∧ r.dumpTape = d.request.dumpTape := by
  obtain ⟨items, d, hitems, hd, hin, hdump⟩ := taken_of_readRun (readRun_of_read h)
  have hread := ofText_option hname value
  have hmem : .option o (.value value) ∈ items := by
    obtain ⟨item, hitem, hofText⟩ := Item.mem_of_ofTexts hitems hvalue.given
    rw [hread] at hofText
    exact Except.ok.inj hofText ▸ hitem
  have hgiven : .value o value ∈ (Event.ofItems RunOption.takesValue true items).1 := by
    rcases Event.value_mem_ofItems ho hmem with hv | ⟨k, hk⟩
    · exact hv
    · exact absurd hk (take_ne_valueMissing hd k)
  have honly : ∀ t, .value o t ∈ (Event.ofItems RunOption.takesValue true items).1 → t = value := by
    intro t ht
    obtain ⟨a, ha, hcases⟩ := Event.option_mem_of_value ht
    obtain ⟨u, hu, hofText⟩ := Item.leading_of_mem_ofTexts hitems ha
    rw [hvalue.only u hu a hofText, hread] at hofText
    cases hofText
    rcases hcases with hc | hc | hc <;> cases hc
    rfl
  exact ⟨d, foldlM_take hset hkeep honly hd (.inr hgiven), hin, hdump⟩

/-- A run with `--input=value` reads that text. -/
theorem input_of_read {arguments : List Text} {r : RunRequest}
    (h : read w (Text.ofString "run" :: arguments) = .run r)
    (hvalue : Assigns arguments "--input" .input value) : r.input = .text value := by
  have hkeep : ∀ d d' e, (∀ t, e ≠ .value .input t) → take w d e = .ok d' →
      d.request.input = .text value → d'.request.input = .text value := by
    intro d d' e hother hd hP
    by_cases hfile : ∃ t, e = .value .inputFile t
    · obtain ⟨t, rfl⟩ := hfile
      exact absurd hP (take_inputFile hd value)
    · have hsame := (take_keeps hd).1 hother fun t ht => hfile ⟨t, ht⟩
      exact hsame.trans hP
  obtain ⟨d, hd, hin, -⟩ :=
    read_assigned h hvalue (by simp [RunOption.table]) rfl (fun d d' hd => take_input hd) hkeep
  exact hin.trans hd

/-- A run with `--dump-tape=value` writes its report there. -/
theorem dumpTape_of_read {arguments : List Text} {r : RunRequest}
    (h : read w (Text.ofString "run" :: arguments) = .run r)
    (hvalue : Assigns arguments "--dump-tape" .dumpTape value) :
    r.dumpTape = some (Path.ofText value) := by
  obtain ⟨d, hd, -, hdump⟩ :=
    read_assigned h hvalue (by simp [RunOption.table]) rfl (fun d d' hd => take_dumpTape hd)
      (fun d d' e hother hd hP => ((take_keeps hd).2 hother).trans hP)
  exact hdump.trans hd

end Request

end TapeMachine
