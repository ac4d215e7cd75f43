import TapeMachine.Proofs.Settings.Document
import TapeMachine.Proofs.Settings.Variables

/-!
Loading settings again. The first time adds the variables of a file to the environment, so the second
time sees another environment, and the values that refer to other variables may come out differently.
But the same names are listed, in the same order, and those that have values are there now: nothing is
left to add. Only if a variable could not be set can the second time end in another way
(`Settings.reloading_changes_nothing`).
-/
namespace TapeMachine

namespace Environment

variable {env env₁ env' : Environment} {name value : String} {e : VariableError} {files : EnvFiles}
  {vars vars' before rest : List (String × Option String)}

/-- Why a variable cannot be set: a null character anywhere, or else an equals sign in its name. -/
inductive Refused (name value : String) : VariableError → Prop where
  | null (there : '\x00' ∈ name.toList ∨ '\x00' ∈ value.toList) : Refused name value .embeddedNull
  | sign (name_null : '\x00' ∉ name.toList) (value_null : '\x00' ∉ value.toList)
      (there : '=' ∈ name.toList) : Refused name value .illegalName

theorem define_eq_error_iff :
    env.define name value = .error e ↔ env.get? name = none ∧ Refused name value e := by
  unfold define
  constructor
  · intro h
    split at h
    · cases h
    · next hget =>
      refine ⟨by simpa using hget, ?_⟩
      split at h
      · next hnull =>
        cases h
        exact .null (by simpa using hnull)
      · next hnull =>
        have hnulls : '\x00' ∉ name.toList ∧ '\x00' ∉ value.toList := by simpa using hnull
        split at h
        · next hsign =>
          cases h
          exact .sign hnulls.1 hnulls.2 (by simpa using hsign)
        · cases h
  · rintro ⟨hget, hrefused⟩
    cases hrefused with
    | null there => simp [hget, there]
    | sign name_null value_null there => simp [hget, name_null, value_null, there]

/-- Every variable of one environment has the same value in another one. -/
def Keeps (env env' : Environment) : Prop :=
  ∀ name value, env.get? name = some value → env'.get? name = some value

theorem Keeps.refl (env : Environment) : Keeps env env := fun _ _ => id

theorem Keeps.trans (h : Keeps env env₁) (h' : Keeps env₁ env') : Keeps env env' :=
  fun name value hget => h' name value (h name value hget)

theorem Adds.keeps (h : Adds env vars env') : Keeps env env' := by
  intro name value hget
  rw [h name, hget, Option.some_or]

/-- Every variable of a list that has a value there is set, to whatever value. -/
def Has (env : Environment) (vars : List (String × Option String)) : Prop :=
  ∀ name value, (name, some value) ∈ vars → ∃ set, env.get? name = some set

theorem Has.mono (h : env.Has vars) (hkeeps : Keeps env env') : env'.Has vars := by
  intro name value hmem
  obtain ⟨set, hset⟩ := h name value hmem
  exact ⟨set, hkeeps name set hset⟩

theorem has_nil (env : Environment) : env.Has [] := by simp [Has]

theorem has_cons {head : String × Option String} :
    env.Has (head :: rest) ↔ env.Has [head] ∧ env.Has rest := by
  simp only [Has, List.mem_cons, List.not_mem_nil, or_false]
  grind

theorem has_unvalued (env : Environment) (name : String) : env.Has [(name, none)] := by simp [Has]

/-- A variable that is added is there. -/
theorem has_of_define (h : env.define name value = .ok env') : env'.Has [(name, some value)] := by
  obtain ⟨env₁, hok, hadds, _⟩ | ⟨e, herror, _⟩ := env.define_cases name value
  · cases hok.symm.trans h
    intro n v hmem
    cases List.mem_singleton.1 hmem
    rw [hadds name, valueIn_singleton, if_pos rfl]
    cases env.get? name <;> exact ⟨_, rfl⟩
  · cases herror.symm.trans h

/-- Adding variables passes over those that are there already. -/
theorem defineAll_append (h : env.Has before) (rest : List (String × Option String)) :
    env.defineAll (before ++ rest) = env.defineAll rest := by
  induction before with
  | nil => rfl
  | cons head before ih =>
    obtain ⟨hhead, hbefore⟩ := has_cons.1 h
    obtain ⟨name, value⟩ := head
    cases value with
    | none => exact ih hbefore
    | some value =>
      obtain ⟨set, hset⟩ := hhead name value (List.mem_singleton_self _)
      have hdefine : env.define name value = .ok env := by simp [define, hset]
      simp only [List.cons_append, defineAll, hdefine]
      exact ih hbefore

theorem defineAll_of_has (h : env.Has vars) : env.defineAll vars = (env, none) := by
  simpa [defineAll] using defineAll_append h []

theorem defineAll_keeps (env : Environment) (vars : List (String × Option String)) :
    Keeps env (env.defineAll vars).1 := by
  induction vars generalizing env with
  | nil => exact .refl env
  | cons head rest ih =>
    obtain ⟨env₁, heq, hadds, _⟩ | ⟨e, value, _, heq, _⟩ := env.defineAll_cons head rest
    · rw [heq]
      exact hadds.keeps.trans (ih env₁)
    · rw [heq]
      exact .refl env

/-- Where adding variables stops: the environment has all of them, or all before one that it refuses. -/
inductive Stops (env : Environment) : List (String × Option String) → Option VariableError → Prop where
  | all {vars : List (String × Option String)} (there : env.Has vars) : Stops env vars none
  | refused (before after : List (String × Option String)) {name value : String} {e : VariableError}
      (there : env.Has before) (refused : env.define name value = .error e) :
      Stops env (before ++ (name, some value) :: after) (some e)

theorem Stops.has (h : env.Stops vars none) : env.Has vars := by
  cases h with
  | all there => exact there

theorem Stops.exists_refused (h : env.Stops vars (some e)) :
    ∃ before name value after, vars = before ++ (name, some value) :: after ∧ env.Has before ∧
      env.get? name = none ∧ Refused name value e := by
  cases h with
  | @refused before after name value _ there refused =>
    obtain ⟨hget, hrefused⟩ := define_eq_error_iff.1 refused
    exact ⟨before, name, value, after, rfl, there, hget, hrefused⟩

theorem Stops.cons {head : String × Option String} {error : Option VariableError}
    (h : env.Stops rest error) (hhead : env.Has [head]) : env.Stops (head :: rest) error := by
  cases h with
  | all there => exact .all (has_cons.2 ⟨hhead, there⟩)
  | refused before after there refused =>
    exact .refused (head :: before) after (has_cons.2 ⟨hhead, there⟩) refused

theorem defineAll_stops (env : Environment) (vars : List (String × Option String)) :
    (env.defineAll vars).1.Stops vars (env.defineAll vars).2 := by
  induction vars generalizing env with
  | nil => exact .all (has_nil env)
  | cons head rest ih =>
    obtain ⟨name, value⟩ := head
    cases value with
    | none => exact (ih env).cons (has_unvalued _ name)
    | some value =>
      cases hdefine : env.define name value with
      | ok env₁ =>
        have hleft : env.defineAll ((name, some value) :: rest) = env₁.defineAll rest := by
          simp only [defineAll, hdefine]
        rw [hleft]
        exact (ih env₁).cons ((has_of_define hdefine).mono (env₁.defineAll_keeps rest))
      | error e =>
        have hleft : env.defineAll ((name, some value) :: rest) = (env, some e) := by
          simp only [defineAll, hdefine]
        rw [hleft]
        exact .refused [] rest (has_nil env) hdefine

/-- The names of a list of variables, and which of them have values. -/
def listed (vars : List (String × Option String)) : List (String × Bool) :=
  vars.map fun v => (v.1, v.2.isSome)

theorem listed_insert (name : String) {value value' : Option String}
    (hvalue : value.isSome = value'.isSome) (h : listed vars = listed vars') :
    listed (fileValues.insert name value vars) = listed (fileValues.insert name value' vars') := by
  induction vars generalizing vars' with
  | nil =>
    cases vars' with
    | nil => simp [fileValues.insert, listed, hvalue]
    | cons => simp [listed] at h
  | cons head rest ih =>
    cases vars' with
    | nil => simp [listed] at h
    | cons head' rest' =>
      simp only [listed, List.map_cons, List.cons.injEq, Prod.mk.injEq] at h
      obtain ⟨⟨hname, hsome⟩, hrest⟩ := h
      by_cases hn : head'.1 = name
      · simp [fileValues.insert, listed, hname, hn, hvalue, hrest]
      · have hih := ih hrest
        simp only [listed] at hih
        simp [fileValues.insert, listed, hname, hn, hsome, hih]

/-- Which names a file lists, and which of them have values, is up to the file alone. -/
theorem listed_fileValues (env env' : Environment) (text : String) :
    listed (env.fileValues text) = listed (env'.fileValues text) := by
  unfold fileValues
  refine List.foldl_rel (r := fun vars vars' => listed vars = listed vars') rfl ?_
  rintro ⟨line, statement⟩ _ vars vars' h
  cases statement with
  | assign name value => exact listed_insert name (by simp) h
  | blank | malformed => exact h

theorem Has.of_listed (h : env.Has vars) (hlisted : listed vars = listed vars') : env.Has vars' := by
  intro name value hmem
  have hmem' : (name, true) ∈ listed vars := by
    rw [hlisted]
    exact List.mem_map.2 ⟨_, hmem, rfl⟩
  obtain ⟨⟨n, v⟩, hv, heq⟩ := List.mem_map.1 hmem'
  obtain ⟨rfl, hsome⟩ := Prod.mk.injEq .. ▸ heq
  obtain ⟨v, rfl⟩ := Option.isSome_iff_exists.1 hsome
  exact h n v hv

theorem addText_keeps (env : Environment) (text : Option String) : Keeps env (env.addText text).env := by
  have h := env.defineAll_keeps (env.textValues text)
  rwa [defineAll_textValues] at h

theorem addText_stops (env : Environment) (text : Option String) :
    (env.addText text).env.Stops (env.textValues text) (env.addText text).error := by
  have h := env.defineAll_stops (env.textValues text)
  rwa [defineAll_textValues] at h

theorem filesOff_of_keeps (h : Keeps env env') (hoff : env.filesOff = true) : env'.filesOff = true := by
  unfold filesOff at hoff ⊢
  cases hget : env.get? switchOff with
  | none => simp [hget] at hoff
  | some value => rwa [h _ _ hget, ← hget]

/-- A later reading finds the same text, unless it is turned off by then. -/
theorem textOf_of_keeps (files : EnvFiles) (h : Keeps env env') :
    env'.textOf files = if env'.filesOff then .ok none else env.textOf files := by
  cases hoff : env'.filesOff with
  | true => exact textOf_of_off files hoff
  | false =>
    refine textOf_congr files ?_
    cases hoff₀ : env.filesOff with
    | false => exact hoff
    | true => rw [filesOff_of_keeps h hoff₀] at hoff; cases hoff

/-- If all variables of a text could be added, reading it again adds nothing. -/
theorem addText_again {text : Option String} (h : (env.addText text).error = none) :
    ((env.addText text).env.addText text).env = (env.addText text).env ∧
      ((env.addText text).env.addText text).error = none := by
  have hstops := env.addText_stops text
  rw [h] at hstops
  rw [← Prod.mk.injEq, ← defineAll_textValues]
  apply defineAll_of_has
  cases text with
  | none => exact has_nil _
  | some text => exact hstops.has.of_listed (env.listed_fileValues _ text)

/-- A variable that is not there is either refused, or it is there afterwards. -/
theorem defineAll_eq_refused_iff (hget : env.get? name = none) :
    env.defineAll ((name, some value) :: rest) = (env, some e) ↔ Refused name value e := by
  constructor
  · intro h
    cases hdefine : env.define name value with
    | error e' =>
      simp only [defineAll, hdefine, Prod.mk.injEq, true_and, Option.some.injEq] at h
      exact (define_eq_error_iff.1 (h ▸ hdefine)).2
    | ok env₁ =>
      have hkeeps := env₁.defineAll_keeps rest
      simp only [defineAll, hdefine] at h
      rw [h] at hkeeps
      obtain ⟨set, hset⟩ := has_of_define hdefine name value (List.mem_singleton_self _)
      cases hget.symm.trans (hkeeps name set hset)
  · intro h
    have hdefine := define_eq_error_iff.2 ⟨hget, h⟩
    simp only [defineAll, hdefine]

/-- A list with the same names and values in the same places is cut at the same place. -/
theorem exists_of_listed {after : List (String × Option String)}
    (h : listed (before ++ (name, some value) :: after) = listed vars) :
    ∃ before' value' after', vars = before' ++ (name, some value') :: after' ∧
      listed before = listed before' := by
  rw [listed, List.map_append, List.map_cons] at h
  obtain ⟨before', tail, rfl, hbefore, htail⟩ := List.map_eq_append_iff.1 h.symm
  obtain ⟨⟨n, v⟩, after', rfl, hhead, _⟩ := List.map_eq_cons_iff.1 htail
  obtain ⟨rfl, hsome⟩ := Prod.mk.injEq .. ▸ hhead
  obtain ⟨value', rfl⟩ := Option.isSome_iff_exists.1 hsome
  exact ⟨before', value', after', rfl, hbefore.symm⟩

theorem valueIn_append_cons {after : List (String × Option String)} {v : Option String}
    (h : ((before ++ (name, v) :: after).map (·.1)).Nodup) :
    valueIn (before ++ (name, v) :: after) name = v := by
  have hbefore : name ∉ before.map (·.1) := by
    rw [List.map_append, List.nodup_append] at h
    exact fun hmem => h.2.2 name hmem name (by simp) rfl
  rw [valueIn, List.lookup_append, lookup_eq_none_of_not_mem hbefore, Option.none_or, lookup_row,
    if_pos rfl]
  rfl

/-- If a variable of a text could not be set, reading the text again stops at the same variable for the
same reason only if the value it has by then is refused for this reason too. -/
theorem addText_again_refused {text : String} (h : (env.addText (some text)).error = some e) :
    let left := (env.addText (some text)).env
    ∃ before name value after, env.fileValues text = before ++ (name, some value) :: after ∧
      left.Has before ∧ left.get? name = none ∧ Refused name value e ∧
      ((left.addText (some text)).env = left ∧ (left.addText (some text)).error = some e ↔
        ∃ again, valueIn (left.fileValues text) name = some again ∧ Refused name again e) := by
  intro left
  have hstops := env.addText_stops (some text)
  rw [h] at hstops
  obtain ⟨before, name, value, after, hvars, hbefore, hget, hrefused⟩ := hstops.exists_refused
  refine ⟨before, name, value, after, hvars, hbefore, hget, hrefused, ?_⟩
  have hlisted := env.listed_fileValues left text
  rw [← textValues, hvars] at hlisted
  obtain ⟨before', again, after', hagain, hbefore'⟩ := exists_of_listed hlisted
  have hvalue : valueIn (left.fileValues text) name = some again := by
    have hnodup := left.nodup_fileValues text
    rw [hagain] at hnodup ⊢
    exact valueIn_append_cons hnodup
  rw [← Prod.mk.injEq, ← defineAll_textValues, textValues, hagain,
    defineAll_append (hbefore.of_listed hbefore'), defineAll_eq_refused_iff hget, ← hagain, hvalue]
  simp

end Environment

namespace Settings

variable {files : EnvFiles} {env left : Environment} {overrides : List (String × Value)}
  {document : List (Value × Value)} {e : VariableError} {text : Option String}

theorem result_eq_unsettable_iff (htext : env.textOf files = .ok text) :
    (loadWith document files env overrides).result = .error (.unsettable e) ↔
      (env.addText text).error = some e := by
  cases herror : (env.addText text).error with
  | some e' => simp [loadWith, htext, herror]
  | none =>
    simp only [loadWith, htext, herror, reduceCtorEq, iff_false]
    intro hresult
    obtain ⟨r, hr⟩ := exists_rejected hresult
    cases hr

theorem env_loadWith (htext : env.textOf files = .ok text) :
    (loadWith document files env overrides).env = (env.addText text).env := by
  simp only [loadWith, htext]

/-- If all variables could be set, settings are loaded again as before. -/
theorem loadWith_again (htext : env.textOf files = .ok text) (hleft : (env.addText text).env = left)
    (herror : (env.addText text).error = none) :
    (loadWith document files left overrides).env = left ∧
      (loadWith document files left overrides).result =
        (loadWith document files env overrides).result := by
  have hlater := Environment.textOf_of_keeps files (env.addText_keeps text)
  obtain ⟨henv, hnone⟩ := Environment.addText_again herror
  rw [hleft] at hlater henv hnone
  cases hoff : left.filesOff with
  | true =>
    rw [hoff, if_pos rfl] at hlater
    have hnothing : left.addText none = ⟨left, [], none⟩ := rfl
    simp only [loadWith, hlater, htext, hnothing, hleft, herror, and_self]
  | false =>
    rw [hoff, if_neg Bool.false_ne_true, htext] at hlater
    simp only [loadWith, hlater, htext, henv, hleft, hnone, herror, and_self]

/-- If a variable could not be set, loading settings again fails in the same way only if the text is read
again, and does. -/
theorem loadWith_again_refused (htext : env.textOf files = .ok text)
    (hleft : (env.addText text).env = left) :
    (loadWith document files left overrides).env = left ∧
        (loadWith document files left overrides).result = .error (.unsettable e) ↔
      left.filesOff = false ∧ (left.addText text).env = left ∧ (left.addText text).error = some e := by
  have hlater := Environment.textOf_of_keeps files (env.addText_keeps text)
  rw [hleft] at hlater
  cases hoff : left.filesOff with
  | true =>
    rw [hoff, if_pos rfl] at hlater
    rw [result_eq_unsettable_iff hlater]
    simp [Environment.addText]
  | false =>
    rw [hoff, if_neg Bool.false_ne_true, htext] at hlater
    rw [result_eq_unsettable_iff hlater, env_loadWith hlater]
    simp

/-- A call that loads settings, with the bytes of a document or without one. -/
structure Call where
  document : Option (List UInt8) := none
  files : EnvFiles
  overrides : List (String × Value) := []

def Call.run (call : Call) (env : Environment) : Loaded :=
  match call.document with
  | none => load call.files env call.overrides
  | some bytes => loadDocument bytes call.files env call.overrides

/-- The environment after several calls, one after the other. -/
def afterCalls (env : Environment) (calls : List Call) : Environment :=
  calls.foldl (fun env call => (call.run env).env) env

theorem readDocument_ne_unsettable (bytes : List UInt8) (e : VariableError) :
    readDocument bytes ≠ .error (.unsettable e) := by
  obtain ⟨_, h⟩ | ⟨_, _, ⟨_, _, h⟩ | ⟨v, _, h⟩⟩ := readDocument_cases bytes
  · simp [h]
  · simp [h]
  · obtain ⟨_, h'⟩ | h' | ⟨_, h'⟩ | ⟨_, _, _, _, _, _, h'⟩ := documentEntries_cases v <;> simp [h, h']

/-- A call has entries to load settings with, or it fails at its document and reads no variables. -/
theorem Call.run_cases (call : Call) :
    (∃ document, ∀ env, call.run env = loadWith document call.files env call.overrides) ∨
    ∃ error, (∀ e, error ≠ LoadError.unsettable e) ∧ ∀ env, call.run env = ⟨.error error, env, []⟩ := by
  unfold Call.run
  cases call.document with
  | none => exact .inl ⟨[], fun env => rfl⟩
  | some bytes =>
    cases hread : readDocument bytes with
    | ok entries => exact .inl ⟨entries, fun env => by simp only [loadDocument, hread]⟩
    | error error =>
      refine .inr ⟨error, ?_, fun env => by simp only [loadDocument, hread]⟩
      rintro e rfl
      exact readDocument_ne_unsettable bytes e hread

theorem Call.run_keeps (call : Call) (env : Environment) : env.Keeps (call.run env).env := by
  obtain ⟨document, hrun⟩ | ⟨error, _, hrun⟩ := call.run_cases
  · rw [hrun]
    unfold loadWith
    cases env.textOf call.files with
    | error e => exact .refl env
    | ok text => exact env.addText_keeps text
  · rw [hrun]
    exact .refl env

theorem afterCalls_keeps (env : Environment) (calls : List Call) : env.Keeps (afterCalls env calls) := by
  induction calls generalizing env with
  | nil => exact .refl env
  | cons call calls ih => exact (call.run_keeps env).trans (ih _)

/-- Loading settings again gives the same result and leaves the environment as it is. The exception is a
variable of the file that could not be set: it is refused again only if reading has not been turned off
by a variable before it, and if the value it has now is refused for the same reason. However often
settings are loaded, no variable that was set gets another value. -/
theorem reloading_changes_nothing (call : Call) (env : Environment) :
    let first := call.run env
    let second := call.run first.env
    ((∀ e, first.result ≠ .error (.unsettable e)) →
      second.env = first.env ∧ second.result = first.result) ∧
    (∀ e, first.result = .error (.unsettable e) →
      ∃ text before name value after, call.files.Reads text ∧
        env.fileValues text = before ++ (name, some value) :: after ∧ first.env.Has before ∧
        first.env.get? name = none ∧ Environment.Refused name value e ∧
        (second.env = first.env ∧ second.result = first.result ↔
          first.env.filesOff = false ∧
          ∃ again, Environment.valueIn (first.env.fileValues text) name = some again ∧
            Environment.Refused name again e)) ∧
    ∀ calls name value, env.get? name = some value →
      (afterCalls env calls).get? name = some value := by
  intro first second
  rw [← and_assoc]
  refine ⟨?_, afterCalls_keeps env⟩
  obtain ⟨document, hrun⟩ | ⟨error, hsettable, hrun⟩ := call.run_cases
  · simp only [first, second, hrun]
    cases htext : env.textOf call.files with
    | error e =>
      have hloaded : loadWith document call.files env call.overrides =
          ⟨.error (.unreadable e), env, []⟩ := by simp only [loadWith, htext]
      simp only [hloaded]
      exact ⟨fun _ => ⟨trivial, trivial⟩, fun e' he => by cases he⟩
    | ok text =>
      simp only [env_loadWith htext]
      refine ⟨fun hresult => loadWith_again htext rfl ?_, fun e hresult => ?_⟩
      · cases herror : (env.addText text).error with
        | none => rfl
        | some e => exact absurd ((result_eq_unsettable_iff htext).2 herror) (hresult e)
      · have herror := (result_eq_unsettable_iff htext).1 hresult
        rw [hresult, loadWith_again_refused htext rfl]
        cases text with
        | none => cases herror
        | some text =>
          obtain ⟨before, name, value, after, hvars, hbefore, hget, hrefused, hagain⟩ :=
            Environment.addText_again_refused herror
          exact ⟨text, before, name, value, after, Environment.reads_of_textOf htext, hvars, hbefore,
            hget, hrefused, and_congr_right fun _ => hagain⟩
  · -- The call fails at its document, which is the same the second time.
    simp only [first, second, hrun]
    refine ⟨fun _ => ⟨trivial, trivial⟩, fun e hresult => ?_⟩
    cases hresult
    exact absurd rfl (hsettable e)

/-- The first call takes the width from the reference's default. The second finds another value in the
file, since the variable that is referred to is set by then, but the first one stands. A name with an
equals sign is refused again and again. -/
theorem reloading_changes_nothing_references :
    let text := "BFVM_CELL_BITS=$\x7bW:-16\x7d\nW=9\nW=8\nBFVM_TRACE\n"
    let call : Call :=
      { files := { project := some text.toUTF8.data.toList }, overrides := [("trace", .null)] }
    let refused : Call := { files := { search := [none, some "'A=B'=1\n".toUTF8.data.toList] } }
    let env : Environment := [("BFVM_OVERFLOW", "trap")]
    let first := call.run env
    first.env = [("BFVM_OVERFLOW", "trap"), ("BFVM_CELL_BITS", "16"), ("W", "8")] ∧
    first.result.toOption = some { cellBits := 16, overflow := .trap } ∧
    Environment.valueIn (first.env.fileValues text) "BFVM_CELL_BITS" = some "8" ∧
    (call.run first.env).env = first.env ∧ (call.run first.env).result = first.result ∧
    (refused.run env).result = .error (.unsettable .illegalName) ∧
    (refused.run (refused.run env).env).result = (refused.run env).result ∧
    env.get? "BFVM_OVERFLOW" = some "trap" ∧
    (afterCalls env [call, refused, { call with document := some [255] }]).get? "BFVM_OVERFLOW" =
      some "trap" := by
  intro text call refused env first
  have henv : first.env = [("BFVM_OVERFLOW", "trap"), ("BFVM_CELL_BITS", "16"), ("W", "8")] := by
    decide +kernel
  have hvalue : Environment.valueIn (first.env.fileValues text) "BFVM_CELL_BITS" = some "8" := by
    rw [henv]
    decide +kernel
  have hloaded : ∀ e, first.result ≠ .error (.unsettable e) := by
    intro e he
    have htext : env.textOf call.files = .ok (some text) :=
      Environment.textOf_of_reads (EnvFiles.Chooses.project rfl).reads (by decide +kernel)
    have herror : (env.addText (some text)).error = none := by decide +kernel
    cases ((result_eq_unsettable_iff htext).1 he).symm.trans herror
  have hoff : env.filesOff = false := by decide +kernel
  have hchooses : refused.files.Chooses "'A=B'=1\n".toUTF8.data.toList :=
    .nearest rfl [none] [] rfl fun f hf => List.mem_singleton.1 hf
  have htext : env.textOf refused.files = .ok (some "'A=B'=1\n") :=
    Environment.textOf_of_reads hchooses.reads hoff
  have hrefused : (refused.run env).result = .error (.unsettable .illegalName) :=
    (result_eq_unsettable_iff htext).2 (by decide +kernel)
  obtain ⟨hsame, -, hkept⟩ := reloading_changes_nothing call env
  obtain ⟨-, hagain, -⟩ := reloading_changes_nothing refused env
  obtain ⟨text', before, name, value, after, hreads, hvars, -, -, -, hiff⟩ := hagain _ hrefused
  cases htext.symm.trans (Environment.textOf_of_reads hreads hoff)
  have hname : name = "A=B" := by
    have hlist : env.fileValues "'A=B'=1\n" = [("A=B", some "1")] := by decide +kernel
    rw [hlist] at hvars
    cases before with
    | nil => exact (congrArg Prod.fst (List.cons.inj hvars).1).symm
    | cons => simp at hvars
  subst hname
  refine ⟨henv, by decide +kernel, hvalue, (hsame hloaded).1, (hsame hloaded).2, hrefused,
    (hiff.2 ⟨by decide +kernel, "1", by decide +kernel, ?_⟩).2, rfl, hkept _ _ _ rfl⟩
  exact .sign (by decide) (by decide) (by decide)

/-- After a variable could not be set the second call may succeed, because a variable before it turned
the reading off, or because the variable that it refers to is set by then. -/
theorem reloading_differs_after_refused_variable :
    (let text := "PYTHON_DOTENV_DISABLED=1\n'A=B'=1\n"
    let call : Call := { files := { project := some text.toUTF8.data.toList } }
    let first := call.run []
    first.result = .error (.unsettable .illegalName) ∧
      first.env = [("PYTHON_DOTENV_DISABLED", "1")] ∧
      (call.run first.env).result.toOption = some {} ∧ (call.run first.env).result ≠ first.result) ∧
    (let text := "BFVM_TRACE=\x00\nX=$\x7bBFVM_TRACE\x7d\nBFVM_TRACE=1\n"
    let call : Call := { files := { project := some text.toUTF8.data.toList } }
    let first := call.run []
    first.result = .error (.unsettable .embeddedNull) ∧ first.env = [("BFVM_TRACE", "1")] ∧
      (call.run first.env).env = [("BFVM_TRACE", "1"), ("X", "1")] ∧
      (call.run first.env).result.toOption = some { trace := true }) := by
  have hreads : ∀ text : String, Environment.textOf [] { project := some text.toUTF8.data.toList } =
      .ok (some text) :=
    fun text => Environment.textOf_of_reads (EnvFiles.Chooses.project rfl).reads rfl
  refine ⟨⟨?_, by decide +kernel, by decide +kernel, fun hsame => ?_⟩, ?_, by decide +kernel,
    by decide +kernel, by decide +kernel⟩
  · exact (result_eq_unsettable_iff (hreads _)).2 (by decide +kernel)
  · have hoption := congrArg Except.toOption hsame
    revert hoption
    decide +kernel
  · exact (result_eq_unsettable_iff (hreads _)).2 (by decide +kernel)

end Settings

end TapeMachine
