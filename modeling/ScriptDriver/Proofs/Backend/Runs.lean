import ScriptDriver.Proofs.Backend.Batch
import ScriptDriver.Proofs.Text.Integer
/-!
# Runs — what a batch runs

Whatever comes of a batch, it runs the commands of its scripts and no others (`compile_runs`).  All of these commands say
the level in the same place, so batches for different levels have no command in common (`command_inj`).  The consoles have
no say in any of it (`compile_alike`).
-/
namespace ScriptDriver

/-- **Worlds that differ in their consoles** at most. -/
structure World.Alike {X : Type} (w w' : World X) : Prop where
  disk : w.disk = w'.disk
  outside : w.outside = w'.outside

namespace Backend

/-! ## What a command says -/

/-- The argument that says a level. -/
def levelArg (level : Text) : Text := "-DRS_VERSION=" ++ level

/-- The arguments before the include paths. -/
def frontArgs (opening : List Text) (s : Script) : List Text :=
  opening ++ languageArgs ++ levelArg (Text.ofInt s.targetApi) ::
    (if s.allowRsNames then [("-DRS_ALLOW_RS_PREFIX=1" : Text)] else [])

/-- The arguments after the include paths. -/
def backArgs (s : Script) : List Text := (flags? s.outputType).getD [] ++ fileArgs s.input s.output

/-- **What a command says**, and when there is one: the include paths stand between all else. -/
theorem command_iff {opening : List Text} {s : Script} {command : List Text} :
    Backend.command opening s = .ok command ↔ (flags? s.outputType).isSome ∧ (∃ level, Decimal.write s.targetApi = .ok level) ∧
      command = frontArgs opening s ++ (includeArgs s.includePaths ++ backArgs s) := by
  unfold Backend.command flags frontArgs backArgs
  cases hlevel : Decimal.write s.targetApi with
  | error e => simp
  | ok level =>
    have htext := Decimal.ofInt_of_write hlevel
    cases hflags : flags? s.outputType with
    | none => simp
    | some words =>
      rw [← htext]
      simp only [Except.ok.injEq, Option.isSome_some, exists_eq', true_and, levelArg, Option.getD_some,
        List.append_assoc, List.cons_append, List.nil_append]
      exact eq_comm

theorem command_level {opening : List Text} {s : Script} {command : List Text}
    (h : Backend.command opening s = .ok command) :
    ∃ rest, command = opening ++ languageArgs ++ levelArg (Text.ofInt s.targetApi) :: rest := by
  obtain ⟨-, -, rfl⟩ := command_iff.1 h
  simp only [frontArgs, List.append_assoc, List.cons_append]
  exact ⟨_, rfl⟩

/-- **Commands after the same opening say their level in the same place**, so that only the same level can give the same
command. -/
theorem command_inj {opening : List Text} {s s' : Script} {command : List Text}
    (h : Backend.command opening s = .ok command) (h' : Backend.command opening s' = .ok command) :
    s.targetApi = s'.targetApi := by
  obtain ⟨rest, hcommand⟩ := command_level h
  obtain ⟨rest', hcommand'⟩ := command_level h'
  have hargs := List.append_cancel_left (hcommand.symm.trans hcommand')
  exact Decimal.ofInt_inj (List.append_cancel_left (List.cons.inj hargs).1)

/-! ## The commands of a batch -/

def OfScripts (c : Compiler) (b : Batch) (here : File.Path) (pairs : List (Text × Text)) (r : Run) : Prop :=
  ∃ pair ∈ pairs, c.command here (scriptOf b pair) = .ok r.command

variable {c : Compiler} {b : Batch}

theorem Turn.play_runs (c : Compiler) (b : Batch) (t : Turn) : ∃ runs,
    (t.play c b).2.outside.runs = t.world.outside.runs ++ runs ∧
      ∀ r ∈ runs, c.command t.world.disk.workingDirectory (scriptOf b t.pair) = .ok r.command := by
  obtain ⟨-, h | ⟨r, hcommand, h⟩⟩ := t.play_session c b
  · exact ⟨[], by rw [h, List.append_nil], nofun⟩
  · exact ⟨[r], by rw [h, Session.run_runs], List.forall_mem_singleton.2 hcommand⟩

/-- A batch is broken off in a turn that does not end, and goes on after one that does. -/
theorem compileAll_world (pair : Text × Text) (pairs dependencies : List (Text × Text)) (w : World Session) :
    (compileAll c b (pair :: pairs) dependencies w).2 =
      match Turn.play c b ⟨pair, dependencies.head?, w⟩ with
      | (.error _, after) => after
      | (.ok _, after) => (compileAll c b pairs dependencies.tail after).2 := by
  rw [compileAll, show compileScript c b pair dependencies.head? w = Turn.play c b ⟨pair, dependencies.head?, w⟩ from rfl]
  rcases Turn.play c b ⟨pair, dependencies.head?, w⟩ with ⟨e | good, after⟩
  · rfl
  · dsimp only
    rcases compileAll c b pairs dependencies.tail after with ⟨e | rest, last⟩ <;> rfl

theorem compileAll_runs : ∀ (pairs dependencies : List (Text × Text)) (w : World Session), ∃ runs,
    (compileAll c b pairs dependencies w).2.outside.runs = w.outside.runs ++ runs ∧
      ∀ r ∈ runs, OfScripts c b w.disk.workingDirectory pairs r
  | [], _, _ => ⟨[], (List.append_nil _).symm, nofun⟩
  | pair :: pairs, dependencies, w => by
    obtain ⟨first, hfirst, hcommand⟩ := Turn.play_runs c b ⟨pair, dependencies.head?, w⟩
    have hhere := (Turn.play_session c b ⟨pair, dependencies.head?, w⟩).1
    have hthis : ∀ r ∈ first, OfScripts c b w.disk.workingDirectory (pair :: pairs) r :=
      fun r hr => ⟨pair, List.mem_cons_self, hcommand r hr⟩
    rw [compileAll_world]
    rcases hplay : Turn.play c b ⟨pair, dependencies.head?, w⟩ with ⟨e | good, after⟩ <;> rw [hplay] at hfirst hhere
    · exact ⟨first, hfirst, hthis⟩
    · obtain ⟨rest, hrest, hlater⟩ := compileAll_runs pairs dependencies.tail after
      refine ⟨first ++ rest, ?_, List.forall_mem_append.2 ⟨hthis, fun r hr => ?_⟩⟩
      · rw [← List.append_assoc, ← hfirst]
        exact hrest
      · obtain ⟨pair', hpair', hcommand'⟩ := hlater r hr
        unfold File.Disk.workingDirectory at hcommand' ⊢
        rw [← hhere]
        exact ⟨pair', List.mem_cons_of_mem _ hpair', hcommand'⟩

/-- **A batch runs the commands of its scripts**, and no others, also if it is broken off. -/
theorem compile_runs (c : Compiler) (b : Batch) (w : World Session) : ∃ runs,
    (compile c b w).2.outside.runs = w.outside.runs ++ runs ∧
      ∀ r ∈ runs, OfScripts c b w.disk.workingDirectory b.plan.outputs r :=
  compileAll_runs _ _ w

/-! ## Consoles -/

def SameResult (r r' : Except Fault Bool × World Session) : Prop :=
  ∃ result after after', r = (result, after) ∧ r' = (result, after') ∧ after.Alike after'

section
variable {w w' : World Session} (h : w.Alike w')
include h

theorem sameResult_of_alike (result : Except Fault Bool) : SameResult (result, w) (result, w') :=
  ⟨result, w, w', rfl, rfl, h⟩

theorem runFor_alike (input : Text) (r : Run) : SameResult (runFor input r w) (runFor input r w') := by
  unfold runFor
  rw [h.outside, h.disk]
  rcases w'.outside.run r with ⟨outcome, session⟩
  dsimp only
  rcases complaint? input (r.command.headD []) r.timeout outcome with e | _ | complaint
  all_goals
    refine sameResult_of_alike ?_ _
    exact ⟨rfl, rfl⟩

theorem runScript_alike (c : Compiler) (s : Script) : SameResult (runScript c s w) (runScript c s w') := by
  unfold runScript
  rw [h.disk]
  rcases (if s.outputType = .nothing then (w'.disk, none) else w'.disk.ensureParent (File.Path.ofText s.output)) with
    ⟨disk, _ | e⟩
  · have hmoved : World.Alike { w with disk } { w' with disk } := ⟨rfl, h.outside⟩
    dsimp only
    rcases c.command disk.workingDirectory s with e | command
    · exact sameResult_of_alike hmoved _
    · exact runFor_alike hmoved _ _
  · refine sameResult_of_alike ?_ _
    exact ⟨rfl, h.outside⟩

theorem noteDependency_alike (input : Text) (targets : List Text) (pair : Text × Text) :
    SameResult (noteDependency input targets pair w) (noteDependency input targets pair w') := by
  unfold noteDependency
  rw [h.disk]
  rcases writeRule pair.2 (rule (pair.1 :: targets) [input]) w'.disk with ⟨disk, _ | _ | _⟩
  all_goals
    refine sameResult_of_alike ?_ _
    exact ⟨rfl, h.outside⟩

theorem compileScript_alike (c : Compiler) (b : Batch) (pair : Text × Text) (dependency : Option (Text × Text)) :
    SameResult (compileScript c b pair dependency w) (compileScript c b pair dependency w') := by
  have hrun : SameResult (if b.outputType = .dependency then (.ok true, w) else runScript c (scriptOf b pair) w)
      (if b.outputType = .dependency then (.ok true, w') else runScript c (scriptOf b pair) w') := by
    split
    · exact sameResult_of_alike h _
    · exact runScript_alike h c _
  obtain ⟨result, after, after', hran, hran', hafter⟩ := hrun
  unfold compileScript
  rw [hran, hran']
  rcases result with e | _ | _
  · exact sameResult_of_alike hafter _
  · exact sameResult_of_alike hafter _
  · cases dependency with
    | none => exact sameResult_of_alike hafter _
    | some dependency =>
      dsimp only
      split
      · exact noteDependency_alike hafter _ _ _
      · exact sameResult_of_alike hafter _

end

theorem compileAll_alike (c : Compiler) (b : Batch) : ∀ (pairs dependencies : List (Text × Text))
    {w w' : World Session}, w.Alike w' →
      SameResult (compileAll c b pairs dependencies w) (compileAll c b pairs dependencies w')
  | [], _, _, _, h => sameResult_of_alike h _
  | pair :: pairs, dependencies, w, w', h => by
    obtain ⟨result, after, after', hscript, hscript', hafter⟩ := compileScript_alike h c b pair dependencies.head?
    unfold compileAll
    rw [hscript, hscript']
    cases result with
    | error e => exact sameResult_of_alike hafter _
    | ok good =>
      obtain ⟨result, last, last', hrest, hrest', hlast⟩ := compileAll_alike c b pairs dependencies.tail hafter
      dsimp only
      rw [hrest, hrest']
      cases result <;> exact sameResult_of_alike hlast _

/-- **What is on the consoles makes no difference to a batch.** -/
theorem compile_alike (c : Compiler) (b : Batch) {w w' : World Session} (h : w.Alike w') :
    SameResult (compile c b w) (compile c b w') :=
  compileAll_alike c b _ _ h

end Backend
end ScriptDriver
