import TapeMachine.Environment
import TapeMachine.Proofs.Utf8Text

/-!
Variables from a file. One file is read, and each of its variables that has a value is added unless the
environment has it already. So what a variable is afterwards comes from the environment, or else from
the file; only a variable that cannot be set stops the reading (`Environment.addText_cases`).
-/
namespace TapeMachine

theorem lookup_row {β : Type} (name : String) (row : String × β) (rows : List (String × β)) :
    (row :: rows).lookup name = if name = row.1 then some row.2 else rows.lookup name := by
  obtain ⟨key, value⟩ := row
  rw [List.lookup_cons]
  by_cases h : name = key
  · simp [h]
  · rw [beq_eq_false_iff_ne.2 h, if_neg h]

theorem lookup_eq_none_of_not_mem {β : Type} {name : String} {rows : List (String × β)}
    (h : name ∉ rows.map (·.1)) : rows.lookup name = none := by
  rw [List.lookup_eq_none_iff]
  intro row hrow
  exact bne_iff_ne.2 fun he => h (List.mem_map.2 ⟨row, hrow, he.symm⟩)

/-- The file that is chosen: that of the program, even if it is empty, or else the nearest one. -/
inductive EnvFiles.Chooses (files : EnvFiles) (bytes : List UInt8) : Prop where
  | project (there : files.project = some bytes)
  | nearest (missing : files.project = none) (nearer further : List (Option (List UInt8)))
      (there : files.search = nearer ++ some bytes :: further) (passed : ∀ f ∈ nearer, f = none)

/-- The text of the chosen file, if that is UTF-8. -/
def EnvFiles.Reads (files : EnvFiles) (text : String) : Prop :=
  ∃ bytes, files.Chooses bytes ∧ Utf8.decode bytes = .ok text.toList

theorem EnvFiles.Chooses.reads {files : EnvFiles} {text : String}
    (h : files.Chooses text.toUTF8.data.toList) : files.Reads text :=
  ⟨_, h, by rw [Utf8.toUTF8_eq_encode, Utf8.decode_encode]⟩

theorem EnvFiles.chosen_eq_some_iff {files : EnvFiles} {bytes : List UInt8} :
    files.chosen = some bytes ↔ files.Chooses bytes := by
  unfold EnvFiles.chosen
  constructor
  · intro h
    cases hp : files.project with
    | some t =>
      rw [hp] at h
      exact .project (hp.trans h)
    | none =>
      rw [hp, Option.none_or] at h
      obtain ⟨nearer, f, further, hs, rfl, hnone⟩ := List.findSome?_eq_some_iff.1 h
      exact .nearest hp nearer further hs hnone
  · intro h
    cases h with
    | project there => rw [there, Option.some_or]
    | nearest missing nearer further there passed =>
      rw [missing, Option.none_or]
      exact List.findSome?_eq_some_iff.2 ⟨nearer, some bytes, further, there, rfl, passed⟩

namespace Environment

variable {env env₁ env' : Environment} {name value : String} {head : String × Option String}
  {vars rest : List (String × Option String)} {files : EnvFiles} {bytes : List UInt8}

/-- Whether a variable can be set at all. -/
structure Settable (name value : String) : Prop where
  name_null : '\x00' ∉ name.toList
  value_null : '\x00' ∉ value.toList
  name_sign : '=' ∉ name.toList

/-- The value that a list of variables gives a name, if the name is there and has one. -/
def valueIn (vars : List (String × Option String)) (name : String) : Option String :=
  (vars.lookup name).join

/-- One environment is another one and those variables of a list that have a value and were not in it. -/
def Adds (env : Environment) (vars : List (String × Option String)) (env' : Environment) : Prop :=
  ∀ name, env'.get? name = (env.get? name).or (valueIn vars name)

/-- Whether all variables that would be added can be set. -/
def CanAdd (env : Environment) (vars : List (String × Option String)) : Prop :=
  ∀ name value, (name, some value) ∈ vars → env.get? name = none → Settable name value

theorem valueIn_singleton (n : String) (v : Option String) (name : String) :
    valueIn [(n, v)] name = if name = n then v else none := by
  rw [valueIn, lookup_row]
  split <;> rfl

/-- In a list without repeated names, the first variable and the others do not interfere. -/
theorem valueIn_cons (h : head.1 ∉ rest.map (·.1)) (name : String) :
    valueIn (head :: rest) name = (valueIn [head] name).or (valueIn rest name) := by
  rw [valueIn_singleton, valueIn, valueIn, lookup_row]
  by_cases hn : name = head.1
  · simp [hn, lookup_eq_none_of_not_mem h]
  · simp [hn]

theorem Adds.refl (env : Environment) : Adds env [] env := by
  intro name
  exact Option.or_none.symm

theorem Adds.cons (h : head.1 ∉ rest.map (·.1)) (h₁ : Adds env [head] env₁)
    (h' : Adds env₁ rest env') : Adds env (head :: rest) env' := by
  intro name
  rw [h' name, h₁ name, valueIn_cons h, Option.or_assoc]

theorem CanAdd.cons (h : head.1 ∉ rest.map (·.1)) (h₁ : Adds env [head] env₁)
    (hhead : CanAdd env [head]) (hrest : CanAdd env₁ rest) : CanAdd env (head :: rest) := by
  intro name value hmem hget
  rcases List.mem_cons.1 hmem with hmem | hmem
  · exact hhead name value (hmem ▸ List.mem_singleton_self _) hget
  · have hne : name ≠ head.1 := fun he => h (he ▸ List.mem_map_of_mem hmem)
    refine hrest name value hmem ?_
    rw [h₁ name, hget, valueIn_singleton, if_neg hne, Option.none_or]

theorem get?_append_singleton (env : Environment) (name value n : String) :
    get? (env ++ [(name, value)]) n = (env.get? n).or (valueIn [(name, some value)] n) := by
  rw [valueIn_singleton, get?, List.lookup_append, lookup_row]
  rfl

/-- A variable is there after it was added, unless it cannot be set. -/
theorem define_cases (env : Environment) (name value : String) :
    (∃ env₁, env.define name value = .ok env₁ ∧ Adds env [(name, some value)] env₁ ∧
      CanAdd env [(name, some value)]) ∨
    ∃ e, env.define name value = .error e ∧ env.get? name = none ∧ ¬ Settable name value := by
  unfold define
  cases hget : env.get? name with
  | some v =>
    refine .inl ⟨env, rfl, ?_, ?_⟩
    · intro n
      rw [valueIn_singleton]
      split
      · next hn => simp [hn, hget]
      · simp
    · intro n v' hmem hnone
      simp only [List.mem_singleton, Prod.mk.injEq] at hmem
      rw [hmem.1, hget] at hnone
      cases hnone
  | none =>
    rw [if_neg (by simp)]
    split
    · next hnull =>
      refine .inr ⟨_, rfl, rfl, fun hs => ?_⟩
      simp [hs.name_null, hs.value_null] at hnull
    · next hnull =>
      split
      · next hsign =>
        refine .inr ⟨_, rfl, rfl, fun hs => ?_⟩
        simp [hs.name_sign] at hsign
      · next hsign =>
        refine .inl ⟨_, rfl, env.get?_append_singleton name value, ?_⟩
        intro n v hmem _
        simp only [List.mem_singleton, Prod.mk.injEq, Option.some.injEq] at hmem
        obtain ⟨rfl, rfl⟩ := hmem
        simp only [Bool.or_eq_true, List.contains_iff_mem, not_or] at hnull
        exact ⟨hnull.1, hnull.2, by simpa using hsign⟩

/-- The first of several variables is added before the others, unless it cannot be set. -/
theorem defineAll_cons (env : Environment) (head : String × Option String)
    (rest : List (String × Option String)) :
    (∃ env₁, env.defineAll (head :: rest) = env₁.defineAll rest ∧ Adds env [head] env₁ ∧
      CanAdd env [head]) ∨
    ∃ e value, head.2 = some value ∧ env.defineAll (head :: rest) = (env, some e) ∧
      env.get? head.1 = none ∧ ¬ Settable head.1 value := by
  obtain ⟨name, value⟩ := head
  cases value with
  | none =>
    refine .inl ⟨env, rfl, ?_, by simp [CanAdd]⟩
    intro n
    simp [valueIn_singleton]
  | some value =>
    obtain ⟨env₁, hdefine, hadds, hcan⟩ | ⟨e, hdefine, hget, hnot⟩ := env.define_cases name value
    · exact .inl ⟨env₁, by simp only [defineAll, hdefine], hadds, hcan⟩
    · exact .inr ⟨e, value, rfl, by simp only [defineAll, hdefine], hget, hnot⟩

/-- Variables are added one after another, up to the first that cannot be set. -/
theorem defineAll_cases (env : Environment) (hvars : (vars.map (·.1)).Nodup) :
    (∃ env', env.defineAll vars = (env', none) ∧ Adds env vars env' ∧ CanAdd env vars) ∨
    ∃ env' e before name value after, env.defineAll vars = (env', some e) ∧
      vars = before ++ (name, some value) :: after ∧ env.get? name = none ∧ ¬ Settable name value ∧
      Adds env before env' ∧ CanAdd env before := by
  induction vars generalizing env with
  | nil => exact .inl ⟨env, rfl, .refl env, by simp [CanAdd]⟩
  | cons head rest ih =>
    obtain ⟨hhead, hrest⟩ := List.nodup_cons.1 hvars
    obtain ⟨env₁, heq, hadds, hcan⟩ | ⟨e, value, hvalue, heq, hget, hnot⟩ := env.defineAll_cons head rest
    · rw [heq]
      obtain ⟨env', hall, hadds', hcan'⟩ |
          ⟨env', e, before, name, value, after, hall, rfl, hget, hnot, hadds', hcan'⟩ := ih env₁ hrest
      · exact .inl ⟨env', hall, hadds.cons hhead hadds', hcan.cons hhead hadds hcan'⟩
      · -- What could not be set was not the first variable, and was not there before either.
        have hbefore : head.1 ∉ before.map (·.1) := by
          intro hmem
          exact hhead (by simp [hmem])
        have hget' : env.get? name = none := by
          rw [hadds name, Option.or_eq_none_iff] at hget
          exact hget.1
        exact .inr ⟨env', e, head :: before, name, value, after, hall, rfl, hget', hnot,
          hadds.cons hbefore hadds', hcan.cons hbefore hadds hcan'⟩
    · obtain ⟨name, v⟩ := head
      subst hvalue
      exact .inr ⟨env, e, [], name, value, rest, heq, rfl, hget, hnot, .refl env, by simp [CanAdd]⟩

/-- A name that is listed again keeps its place, and one that is new comes last. -/
theorem map_insert (name : String) (value : Option String) (vars : List (String × Option String)) :
    (fileValues.insert name value vars).map (·.1) =
      if name ∈ vars.map (·.1) then vars.map (·.1) else vars.map (·.1) ++ [name] := by
  induction vars with
  | nil => simp [fileValues.insert]
  | cons head rest ih =>
    unfold fileValues.insert
    by_cases h : head.1 = name
    · simp [h]
    · have hne : name ≠ head.1 := Ne.symm h
      simp only [h, if_false, List.map_cons, ih, List.mem_cons, hne, false_or]
      split <;> simp

theorem nodup_insert (name : String) (value : Option String) (h : (vars.map (·.1)).Nodup) :
    ((fileValues.insert name value vars).map (·.1)).Nodup := by
  rw [map_insert]
  split
  · exact h
  · next hnew =>
    rw [List.nodup_append]
    refine ⟨h, by simp, ?_⟩
    intro a ha b hb hab
    rw [List.mem_singleton.1 hb] at hab
    exact hnew (hab ▸ ha)

/-- A file lists no name twice. -/
theorem nodup_fileValues (env : Environment) (text : String) :
    ((env.fileValues text).map (·.1)).Nodup := by
  unfold fileValues
  apply List.foldlRecOn (motive := fun vars => (List.map (Prod.fst (β := Option String)) vars).Nodup)
  · exact List.nodup_nil
  · intro vars hvars statement _
    obtain ⟨line, statement⟩ := statement
    cases statement with
    | assign name value => exact nodup_insert name _ hvars
    | blank | malformed => exact hvars

/-! ### Reading a file -/

theorem textOf_of_off (files : EnvFiles) (hoff : env.filesOff = true) : env.textOf files = .ok none := by
  unfold textOf
  cases files.chosen <;> simp [hoff]

theorem textOf_of_chooses (h : files.Chooses bytes) (hon : env.filesOff = false) :
    env.textOf files = (Utf8.decode bytes).map fun chars => some (String.ofList chars) := by
  simp only [textOf, EnvFiles.chosen_eq_some_iff.2 h, hon]
  cases Utf8.decode bytes <;> rfl

theorem textOf_of_reads {text : String} (h : files.Reads text) (hon : env.filesOff = false) :
    env.textOf files = .ok (some text) := by
  obtain ⟨bytes, hchooses, hdecode⟩ := h
  rw [textOf_of_chooses hchooses hon, hdecode, Except.map, String.ofList_toList]

/-- What is read depends on the environment only in whether anything is. -/
theorem textOf_congr (files : EnvFiles) (h : env.filesOff = env'.filesOff) :
    env.textOf files = env'.textOf files := by
  rw [textOf, textOf, h]

theorem reads_of_textOf {text : String} (h : env.textOf files = .ok (some text)) : files.Reads text := by
  unfold textOf at h
  split at h
  · cases h
  next bytes hchosen =>
    split at h
    · cases h
    · split at h
      next chars hchars =>
        cases h
        exact ⟨bytes, EnvFiles.chosen_eq_some_iff.1 hchosen, by rw [hchars, String.toList_ofList]⟩
      next => cases h

/-- The variables of a text, if there is one. -/
def textValues (env : Environment) : Option String → List (String × Option String)
  | none => []
  | some text => env.fileValues text

/-- The variables that are read: those of the chosen file, which has to be UTF-8, or none if there is no
such file or the environment turns the reading off. -/
def readVariables (env : Environment) (files : EnvFiles) :
    Except Utf8.DecodeError (List (String × Option String)) :=
  (env.textOf files).map env.textValues

theorem readVariables_of_chooses (h : files.Chooses bytes) (hon : env.filesOff = false) :
    env.readVariables files =
      (Utf8.decode bytes).map fun chars => env.fileValues (String.ofList chars) := by
  rw [readVariables, textOf_of_chooses h hon]
  cases Utf8.decode bytes <;> rfl

theorem readVariables_eq_nil (h : (¬ ∃ bytes, files.Chooses bytes) ∨ env.filesOff = true) :
    env.readVariables files = .ok [] := by
  rcases h with hnone | hoff
  · have hchosen : files.chosen = none := by
      rw [Option.eq_none_iff_forall_ne_some]
      exact fun bytes hbytes => hnone ⟨bytes, EnvFiles.chosen_eq_some_iff.1 hbytes⟩
    rw [readVariables, textOf, hchosen]
    rfl
  · rw [readVariables, textOf_of_off files hoff]
    rfl

theorem defineAll_textValues (env : Environment) (text : Option String) :
    env.defineAll (env.textValues text) = ((env.addText text).env, (env.addText text).error) := by
  cases text <;> rfl

/-- The variables of a text are added, up to the first that cannot be set. -/
theorem addText_cases (env : Environment) (text : Option String) :
    ((env.addText text).error = none ∧ Adds env (env.textValues text) (env.addText text).env ∧
      CanAdd env (env.textValues text)) ∨
    ∃ e before name value after, (env.addText text).error = some e ∧
      env.textValues text = before ++ (name, some value) :: after ∧ env.get? name = none ∧
      ¬ Settable name value ∧ Adds env before (env.addText text).env ∧ CanAdd env before := by
  have hnodup : ((env.textValues text).map (·.1)).Nodup := by
    cases text with
    | none => exact List.nodup_nil
    | some text => exact env.nodup_fileValues text
  obtain ⟨env', hall, hadds, hcan⟩ |
      ⟨env', e, before, name, value, after, hall, hvars, hget, hnot, hadds, hcan⟩ :=
    env.defineAll_cases hnodup
  · obtain ⟨rfl, herror⟩ := Prod.mk.inj ((env.defineAll_textValues text).symm.trans hall)
    exact .inl ⟨herror, hadds, hcan⟩
  · obtain ⟨rfl, herror⟩ := Prod.mk.inj ((env.defineAll_textValues text).symm.trans hall)
    exact .inr ⟨e, before, name, value, after, herror, hvars, hget, hnot, hadds, hcan⟩

end Environment

end TapeMachine
