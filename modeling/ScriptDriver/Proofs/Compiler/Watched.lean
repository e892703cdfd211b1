import ScriptDriver.Compiler.Lifecycle
/-!
# Watched — what is done with the compilers of a kind

A kind of compiler is watched by noting every call with the way it ended.  A compiler has a number, that of the calls
before the one that made it, so that calls about one compiler can be told from calls about another.  Watching gets in
nobody's way: it changes neither what comes of a call nor the world beside the notes.
-/
namespace ScriptDriver

/-- A call, and how it ended; all but the making of a compiler are about the compiler with a number. -/
inductive Call (E : Type) where
  | make (fault : Option E)
  | setUp (number : Nat) (target : Target) (fault : Option E)
  | compile (number : Nat) (batch : Batch) (result : Except E Bool)
  | putAway (number : Nat) (fault : Option E)

/-- What a compiler uses beside the world, and the calls so far, in order. -/
structure Watched (X E : Type) where
  outside : X
  calls : List (Call E)

variable {X C E R α : Type}

def fault? : Except E α → Option E
  | .ok _ => none
  | .error e => some e

/-- The world without the notes. -/
def World.plain (w : World (Watched X E)) : World X := ⟨w.disk, w.out, w.err, w.outside.outside⟩

def World.noted (w : World X) (calls : List (Call E)) : World (Watched X E) :=
  ⟨w.disk, w.out, w.err, ⟨w.outside, calls⟩⟩

/-- Does something and notes the call. -/
def watch (call : R → Call E) (act : World X → R × World X) (w : World (Watched X E)) : R × World (Watched X E) :=
  match act w.plain with
  | (r, after) => (r, after.noted (w.outside.calls ++ [call r]))

/-- **The kind with every call noted.** -/
def CompilerKind.watched (kind : CompilerKind X C E) : CompilerKind (Watched X E) (Nat × C) E where
  make := fun w =>
    match watch (fun r => .make (fault? r)) kind.make w with
    | (r, after) => (r.map fun c => (w.outside.calls.length, c), after)
  setUp := fun c target w =>
    match watch (fun r => .setUp c.1 target (fault? r)) (kind.setUp c.2 target) w with
    | (r, after) => (r.map fun d => (c.1, d), after)
  compile := fun c batch => watch (.compile c.1 batch) (kind.compile c.2 batch)
  putAway := fun c => watch (.putAway c.1) (kind.putAway c.2)

/-- **A kind of compiler that does not fail** to be made, set up and put away. -/
structure CompilerKind.Reliable (kind : CompilerKind X C E) : Prop where
  make : ∀ w, ∃ c after, kind.make w = (.ok c, after)
  setUp : ∀ c target w, ∃ d after, kind.setUp c target w = (.ok d, after)
  putAway : ∀ c w, ∃ after, kind.putAway c w = (none, after)

@[simp] theorem World.plain_noted (w : World X) (calls : List (Call E)) : (w.noted calls).plain = w := rfl

/-! ## One call -/

theorem watch_noted {call : R → Call E} {act : World X → R × World X} {w after : World X} {r : R}
    {calls : List (Call E)} (h : act w = (r, after)) :
    watch call act (w.noted calls) = (r, after.noted (calls ++ [call r])) := by
  unfold watch
  rw [World.plain_noted, h]
  rfl

section
variable {kind : CompilerKind X C E} {w after : World X} {calls : List (Call E)} {n : Nat} {c d : C} {target : Target}
  {e : E}

theorem watched_make_ok (h : kind.make w = (.ok c, after)) :
    kind.watched.make (w.noted calls) = (.ok (calls.length, c), after.noted (calls ++ [.make none])) := by
  simp only [CompilerKind.watched, watch_noted h]
  rfl

theorem watched_make_error (h : kind.make w = (.error e, after)) :
    kind.watched.make (w.noted calls) = (.error e, after.noted (calls ++ [.make (some e)])) := by
  simp only [CompilerKind.watched, watch_noted h]
  rfl

theorem watched_setUp_ok (h : kind.setUp c target w = (.ok d, after)) :
    kind.watched.setUp (n, c) target (w.noted calls) =
      (.ok (n, d), after.noted (calls ++ [.setUp n target none])) := by
  simp only [CompilerKind.watched, watch_noted h]
  rfl

theorem watched_setUp_error (h : kind.setUp c target w = (.error e, after)) :
    kind.watched.setUp (n, c) target (w.noted calls) =
      (.error e, after.noted (calls ++ [.setUp n target (some e)])) := by
  simp only [CompilerKind.watched, watch_noted h]
  rfl

theorem watched_compile {batch : Batch} {r : Except E Bool} (h : kind.compile c batch w = (r, after)) :
    kind.watched.compile (n, c) batch (w.noted calls) = (r, after.noted (calls ++ [.compile n batch r])) := by
  simp only [CompilerKind.watched, watch_noted h]

theorem watched_putAway {fault : Option E} (h : kind.putAway c w = (fault, after)) :
    kind.watched.putAway (n, c) (w.noted calls) = (fault, after.noted (calls ++ [.putAway n fault])) := by
  simp only [CompilerKind.watched, watch_noted h]

end

/-! ## One batch -/

/-- What comes of something with a fault after it: the fault. -/
def unlessFault (fault : Option E) (result : Except E α) : Except E α :=
  match fault with
  | some e => .error e
  | none => result

section
variable {kind : CompilerKind X C E} {target : Target} {batch : Batch} {w w₁ w₂ w₃ w₄ : World X}

theorem compileOnce_of_make_error {e : E} (h : kind.make w = (.error e, w₁)) :
    compileOnce kind target batch w = (.error e, w₁) := by
  simp only [compileOnce, Context.within, Context.acquire, Context.release, Context.empty, h]

theorem compileOnce_of_setUp_error {c : C} {e : E} (hmake : kind.make w = (.ok c, w₁))
    (h : kind.setUp c target w₁ = (.error e, w₂)) : compileOnce kind target batch w = (.error e, w₂) := by
  simp only [compileOnce, Context.within, Context.acquire, Context.release, Context.empty, hmake, h]

theorem compileOnce_of_compile {c d : C} {result : Except E Bool} {fault : Option E}
    (hmake : kind.make w = (.ok c, w₁)) (hset : kind.setUp c target w₁ = (.ok d, w₂))
    (hcompile : kind.compile d batch w₂ = (result, w₃)) (hput : kind.putAway d w₃ = (fault, w₄)) :
    compileOnce kind target batch w = (unlessFault fault result, w₄) := by
  simp only [compileOnce, Context.within, Context.acquire, Context.release, Context.empty, hmake, hset, hcompile, hput]
  cases fault <;> rfl

end

/-- The calls for one batch: the compiler is made, set up, given the batch and put away, whatever comes of the batch. -/
def batchCalls (number : Nat) (target : Target) (batch : Batch) (result : Except E Bool) : List (Call E) :=
  [.make none, .setUp number target none, .compile number batch result, .putAway number none]

/-- **A batch takes four calls** with a reliable kind. -/
theorem compileOnce_watched {kind : CompilerKind X C E} (reliable : kind.Reliable) (target : Target) (batch : Batch)
    (w : World X) (calls : List (Call E)) : ∃ result after,
      compileOnce kind.watched target batch (w.noted calls) =
        (result, World.noted after (calls ++ batchCalls calls.length target batch result)) := by
  obtain ⟨c, w₁, hmake⟩ := reliable.make w
  obtain ⟨d, w₂, hset⟩ := reliable.setUp c target w₁
  rcases hcompile : kind.compile d batch w₂ with ⟨result, w₃⟩
  obtain ⟨w₄, hput⟩ := reliable.putAway d w₃
  refine ⟨result, w₄, ?_⟩
  rw [compileOnce_of_compile (watched_make_ok hmake) (watched_setUp_ok hset) (watched_compile hcompile)
    (watched_putAway hput)]
  simp only [unlessFault, batchCalls, List.append_assoc, List.cons_append, List.nil_append]

/-- **Watching changes nothing** about a batch but the notes. -/
theorem compileOnce_plain (kind : CompilerKind X C E) (target : Target) (batch : Batch) (w : World X)
    (calls : List (Call E)) : ∃ more, compileOnce kind.watched target batch (w.noted calls) =
      ((compileOnce kind target batch w).1, (compileOnce kind target batch w).2.noted (calls ++ more)) := by
  rcases hmake : kind.make w with ⟨e | c, w₁⟩
  · rw [compileOnce_of_make_error hmake, compileOnce_of_make_error (watched_make_error hmake)]
    exact ⟨_, rfl⟩
  · rcases hset : kind.setUp c target w₁ with ⟨e | d, w₂⟩
    · rw [compileOnce_of_setUp_error hmake hset,
        compileOnce_of_setUp_error (watched_make_ok hmake) (watched_setUp_error hset), List.append_assoc]
      exact ⟨_, rfl⟩
    · rcases hcompile : kind.compile d batch w₂ with ⟨result, w₃⟩
      rcases hput : kind.putAway d w₃ with ⟨fault, w₄⟩
      rw [compileOnce_of_compile hmake hset hcompile hput,
        compileOnce_of_compile (watched_make_ok hmake) (watched_setUp_ok hset) (watched_compile hcompile)
          (watched_putAway hput), List.append_assoc, List.append_assoc, List.append_assoc]
      exact ⟨_, rfl⟩

end ScriptDriver
