import ScriptDriver.Proofs.Compiler.Watched
/-!
# Holding — the compiler that a context holds

Whatever is done with a context, and whatever fails on the way, its calls come in an order (`Orderly`): a compiler is
made, set up, used and put away before the next one is made, and one that cannot be made or set up is let go at once.
Every call is accounted for by two laws that one call after another keeps: compilers made are set up, fail to be, or are
about to be (`Orderly.set_up`), and compilers set up have been put away or are held (`Orderly.put_away`).  All that is
known of a context follows from these (`reaches_lifecycle`).
-/
namespace ScriptDriver

variable {X C E α : Type}

/-! ## Calls -/

namespace Call

/-- The calls that make a compiler, that set one up, that fail to, and that put one away, with or without a fault. -/
def makes : Call E → Bool
  | .make none => true
  | _ => false

def setsUp (n : Nat) : Call E → Bool
  | .setUp m _ none => m = n
  | _ => false

def failsToSetUp (n : Nat) : Call E → Bool
  | .setUp m _ (some _) => m = n
  | _ => false

def putsAway (n : Nat) : Call E → Bool
  | .putAway m _ => m = n
  | _ => false

end Call

/-- Whether compiler `n` has been made: a compiler has the number of the call that made it. -/
def Made (calls : List (Call E)) (n : Nat) : Bool := calls[n]?.any Call.makes

/-- Compiler `n` has been set up and has not been put away. -/
def Live (calls : List (Call E)) (n : Nat) : Prop :=
  0 < calls.countP (·.setsUp n) ∧ calls.countP (·.putsAway n) = 0

/-- Where a context stands between two calls. -/
inductive Stage where
  | idle
  | made (n : Nat)
  | ready (n : Nat)
  deriving DecidableEq

/-- The calls that can be made next, as call number `number`, and where they lead. -/
inductive Stage.Next (number : Nat) : Stage → Call E → Stage → Prop where
  | makeFails (e : E) : Next number .idle (.make (some e)) .idle
  | make : Next number .idle (.make none) (.made number)
  | setUpFails (n : Nat) (target : Target) (e : E) : Next number (.made n) (.setUp n target (some e)) .idle
  | setUp (n : Nat) (target : Target) : Next number (.made n) (.setUp n target none) (.ready n)
  | compile (n : Nat) (batch : Batch) (result : Except E Bool) :
      Next number (.ready n) (.compile n batch result) (.ready n)
  | putAway (n : Nat) (fault : Option E) : Next number (.ready n) (.putAway n fault) .idle

/-- **Calls in order**, and where they lead. -/
inductive Orderly : List (Call E) → Stage → Prop where
  | nil : Orderly [] .idle
  | next {calls : List (Call E)} {stage after : Stage} {call : Call E} (h : Orderly calls stage)
      (hc : stage.Next calls.length call after) : Orderly (calls ++ [call]) after

section
variable {calls before : List (Call E)} {stage after : Stage} {call : Call E} {n m : Nat}

theorem made_concat (call : Call E) :
    Made (calls ++ [call]) n = if n = calls.length then call.makes else Made calls n := by
  unfold Made
  split
  · rename_i hn
    rw [hn, List.getElem?_concat_length]
    rfl
  · rename_i hn
    rcases Nat.lt_or_gt_of_ne hn with hlt | hgt
    · rw [List.getElem?_append_left hlt]
    · rw [List.getElem?_eq_none (by rw [List.length_append]; exact hgt), List.getElem?_eq_none (Nat.le_of_lt hgt)]

theorem made_length (calls : List (Call E)) : Made calls calls.length = false := by
  unfold Made
  rw [List.getElem?_eq_none (Nat.le_refl _)]
  rfl

namespace Orderly

/-- What calls in order begin with is in order too, so that what holds of calls in order holds at every point. -/
theorem of_before (h : Orderly calls stage) (hb : before <+: calls) : ∃ stage, Orderly before stage := by
  induction h with
  | nil =>
    rw [List.prefix_nil.1 hb]
    exact ⟨_, .nil⟩
  | next h hc ih =>
    rcases List.prefix_concat_iff.1 hb with rfl | hb
    · exact ⟨_, h.next hc⟩
    · exact ih hb

/-- **Every compiler that is made is set up, or fails to be, or is about to be**, and only these are. -/
theorem set_up (h : Orderly calls stage) (n : Nat) :
    calls.countP (·.setsUp n) + calls.countP (·.failsToSetUp n) + (if stage = .made n then 1 else 0) =
      if Made calls n then 1 else 0 := by
  induction h with
  | nil => rfl
  | @next calls stage after call h hc ih =>
    have hnew := made_length calls
    rw [List.countP_append, List.countP_append, List.countP_singleton, List.countP_singleton, made_concat]
    cases hc <;> grind [Call.setsUp, Call.failsToSetUp, Call.makes]

/-- **Every compiler that is set up has been put away or is ready**, and only these are. -/
theorem put_away (h : Orderly calls stage) (n : Nat) :
    calls.countP (·.setsUp n) = calls.countP (·.putsAway n) + if stage = .ready n then 1 else 0 := by
  induction h with
  | nil => rfl
  | @next calls stage after call h hc ih =>
    rw [List.countP_append, List.countP_append, List.countP_singleton, List.countP_singleton]
    cases hc <;> grind [Call.setsUp, Call.putsAway]

theorem setsUp_le (h : Orderly calls stage) (n : Nat) : calls.countP (·.setsUp n) ≤ 1 := by
  have hset := h.set_up n
  split at hset <;> split at hset <;> omega

theorem putsAway_le (h : Orderly calls stage) (n : Nat) : calls.countP (·.putsAway n) ≤ 1 := by
  have hput := h.put_away n
  have hset := h.setsUp_le n
  omega

theorem live_iff (h : Orderly calls stage) (n : Nat) : Live calls n ↔ stage = .ready n := by
  have hput := h.put_away n
  have hset := h.setsUp_le n
  unfold Live
  split at hput <;> rename_i hready <;> simp only [hready, iff_true, iff_false] <;> omega

theorem made_of_live (h : Orderly calls stage) (hn : Live calls n) : Made calls n = true := by
  have hset := h.set_up n
  have hpos := hn.1
  cases hmade : Made calls n with
  | true => rfl
  | false =>
    rw [hmade, if_neg Bool.false_ne_true] at hset
    omega

theorem live_unique (h : Orderly calls stage) (hn : Live calls n) (hm : Live calls m) : n = m := by
  have hready := ((h.live_iff n).1 hn).symm.trans ((h.live_iff m).1 hm)
  injection hready

/-- What is put away has been set up, and has not been put away before. -/
theorem live_of_putAway {fault : Option E} (h : Orderly (calls ++ [.putAway n fault]) stage) : Live calls n := by
  have hput := h.put_away n
  have hset := h.setsUp_le n
  rw [List.countP_append, List.countP_singleton] at hput hset
  rw [List.countP_append, List.countP_singleton] at hput
  grind [Live, Call.setsUp, Call.putsAway]

end Orderly
end

/-! ## One step -/

namespace Context

/-- The calls that a context has made so far, and where they have led if they are in order. -/
def calls (ctx : Context (Watched X E) (Nat × C)) : List (Call E) := ctx.world.outside.calls

def stage (ctx : Context X (Nat × C)) : Stage :=
  match ctx.compiler with
  | none => .idle
  | some c => .ready c.1

variable {kind : CompilerKind X C E} {ctx mid : Context (Watched X E) (Nat × C)}

theorem stage_of_none (h : ctx.compiler = none) : ctx.stage = .idle := by rw [stage, h]

theorem stage_of_some {c : Nat × C} (h : ctx.compiler = some c) : ctx.stage = .ready c.1 := by rw [stage, h]

/-- **What asking for a compiler comes to**: the one in use, a fault of making or of setting up, or a new one. -/
theorem acquire_cases (kind : CompilerKind X C E) (target : Target) (ctx : Context (Watched X E) (Nat × C)) :
    (∃ c, ctx.compiler = some c ∧ ctx.acquire kind.watched target = (.ok c, ctx)) ∨
    ctx.compiler = none ∧ ∃ after,
      (∃ e, ctx.acquire kind.watched target = (.error e, after) ∧ after.compiler = none ∧
        after.calls = ctx.calls ++ [.make (some e)]) ∨
      (∃ e, ctx.acquire kind.watched target = (.error e, after) ∧ after.compiler = none ∧
        after.calls = ctx.calls ++ [.make none] ++ [.setUp ctx.calls.length target (some e)]) ∨
      ∃ c, ctx.acquire kind.watched target = (.ok (ctx.calls.length, c), after) ∧
        after.compiler = some (ctx.calls.length, c) ∧
        after.calls = ctx.calls ++ [.make none] ++ [.setUp ctx.calls.length target none] := by
  obtain ⟨held, w⟩ := ctx
  cases held with
  | some c => exact .inl ⟨c, rfl, rfl⟩
  | none =>
    refine .inr ⟨rfl, ?_⟩
    have hw : w = w.plain.noted w.outside.calls := rfl
    rcases hmake : kind.make w.plain with ⟨e | c, w₁⟩
    · refine ⟨⟨none, w₁.noted _⟩, .inl ⟨e, ?_, rfl, rfl⟩⟩
      simp only [acquire]
      rw [hw, watched_make_error hmake]
      rfl
    · rcases hset : kind.setUp c target w₁ with ⟨e | d, w₂⟩
      · refine ⟨⟨none, w₂.noted _⟩, .inr (.inl ⟨e, ?_, rfl, rfl⟩)⟩
        simp only [acquire]
        rw [hw, watched_make_ok hmake]
        simp only [watched_setUp_error hset]
        rfl
      · refine ⟨⟨some (_, d), w₂.noted _⟩, .inr (.inr ⟨d, ?_, rfl, rfl⟩)⟩
        simp only [acquire]
        rw [hw, watched_make_ok hmake]
        simp only [watched_setUp_ok hset]
        rfl

/-- **A context whose calls are in order**, up to the compiler that is in use. -/
def Sound (ctx : Context (Watched X E) (Nat × C)) : Prop := Orderly ctx.calls ctx.stage

theorem acquire_sound (target : Target) (h : ctx.Sound) : (ctx.acquire kind.watched target).2.Sound := by
  rcases acquire_cases kind target ctx with ⟨c, -, hr⟩ | ⟨hnone, after, hr⟩
  · rw [hr]
    exact h
  have hidle : Orderly ctx.calls .idle := stage_of_none hnone ▸ h
  rcases hr with ⟨e, hr, hheld, hcalls⟩ | ⟨e, hr, hheld, hcalls⟩ | ⟨c, hr, hheld, hcalls⟩ <;> rw [hr, Sound, hcalls]
  · rw [stage_of_none hheld]
    exact hidle.next (.makeFails e)
  · rw [stage_of_none hheld]
    exact (hidle.next .make).next (.setUpFails _ target e)
  · rw [stage_of_some hheld]
    exact (hidle.next .make).next (.setUp _ target)

/-- What giving the compiler in use away comes to. -/
theorem release_cases (kind : CompilerKind X C E) (ctx : Context (Watched X E) (Nat × C)) :
    (ctx.compiler = none ∧ ctx.release kind.watched = (none, ctx)) ∨
    ∃ c fault after, ctx.compiler = some c ∧ ctx.release kind.watched = (fault, ⟨none, after⟩) ∧
      after.outside.calls = ctx.calls ++ [.putAway c.1 fault] := by
  obtain ⟨held, w⟩ := ctx
  cases held with
  | none => exact .inl ⟨rfl, rfl⟩
  | some c =>
    rcases hput : kind.putAway c.2 w.plain with ⟨fault, after⟩
    have hcall : kind.watched.putAway c w = (fault, after.noted (w.outside.calls ++ [.putAway c.1 fault])) :=
      watched_putAway hput
    exact .inr ⟨c, fault, after.noted (w.outside.calls ++ [.putAway c.1 fault]), rfl, by simp only [release, hcall], rfl⟩

theorem release_empties (kind : CompilerKind X C E) (ctx : Context X C) : (ctx.release kind).2.compiler = none := by
  obtain ⟨held, w⟩ := ctx
  cases held <;> rfl

theorem release_sound (h : ctx.Sound) : (ctx.release kind.watched).2.Sound := by
  rcases release_cases kind ctx with ⟨-, hr⟩ | ⟨c, fault, after, hsome, hr, hcalls⟩
  · rw [hr]
    exact h
  · have hready : Orderly ctx.calls (.ready c.1) := stage_of_some hsome ▸ h
    rw [hr]
    show Orderly after.outside.calls .idle
    rw [hcalls]
    exact hready.next (.putAway _ fault)

/-- Leaving a block is releasing the context, whatever comes of the block. -/
theorem within_context (kind : CompilerKind X C E) (body : Context X C → Except E α × Context X C) (ctx : Context X C) :
    (ctx.within kind body).2 = ((body ctx).2.release kind).2 := by
  unfold within
  rcases hbody : body ctx with ⟨result, mid⟩
  rcases hrelease : mid.release kind with ⟨_ | e, after⟩ <;> simp only [hrelease]

theorem compile_sound {c : Nat × C} (batch : Batch) (hc : ctx.compiler = some c) (h : ctx.Sound) :
    Sound { ctx with world := (kind.watched.compile c batch ctx.world).2 } := by
  obtain ⟨held, w⟩ := ctx
  obtain rfl : held = some c := hc
  rcases hcompile : kind.compile c.2 batch w.plain with ⟨result, after⟩
  have hcall : kind.watched.compile c batch w = (result, after.noted (w.outside.calls ++ [.compile c.1 batch result])) :=
    watched_compile hcompile
  rw [hcall]
  exact Orderly.next h (.compile c.1 batch result)

/-! ## All that can be done -/

/-- **What can be done with a context**, one thing after the other: a compiler is asked for, it is given a batch, it is
released, something else is done to the world, or all this in a block that releases the context in the end.  What is
asked for may fail at any time; a block may be left at any time, by a failure or not. -/
inductive Reaches (kind : CompilerKind X C E) :
    Context (Watched X E) (Nat × C) → Context (Watched X E) (Nat × C) → Prop where
  | stay (a) : Reaches kind a a
  | acquire {a b} (target : Target) (h : Reaches kind a b) : Reaches kind a (b.acquire kind.watched target).2
  | compile {a b} {c : Nat × C} (batch : Batch) (hc : b.compiler = some c) (h : Reaches kind a b) :
      Reaches kind a { b with world := (kind.watched.compile c batch b.world).2 }
  | release {a b} (h : Reaches kind a b) : Reaches kind a (b.release kind.watched).2
  | meanwhile {a b} (change : World X → World X) (h : Reaches kind a b) :
      Reaches kind a { b with world := (change b.world.plain).noted b.calls }
  | block {a b} {α : Type} (body : Context (Watched X E) (Nat × C) → Except E α × Context (Watched X E) (Nat × C))
      (h : Reaches kind a b) (hbody : Reaches kind b (body b).2) : Reaches kind a (b.within kind.watched body).2

theorem Reaches.sound (h : Reaches kind ctx mid) (hs : ctx.Sound) : mid.Sound := by
  induction h with
  | stay => exact hs
  | acquire target h ih => exact acquire_sound target (ih hs)
  | compile batch hc h ih => exact compile_sound batch hc (ih hs)
  | release h ih => exact release_sound (ih hs)
  | meanwhile change h ih => exact ih hs
  | block body h hbody ih ihbody =>
    rw [within_context]
    exact release_sound (ihbody (ih hs))

theorem empty_sound (w : World X) : (empty (w.noted []) : Context (Watched X E) (Nat × C)).Sound := .nil

/-- **The life of the compilers of a context**, at a point that it has come to. -/
structure Lifecycle (kind : CompilerKind X C E) (ctx : Context (Watched X E) (Nat × C)) : Prop where
  held : ∀ n, Live ctx.calls n ↔ ∃ c, ctx.compiler = some (n, c)
  made : ∀ n, Live ctx.calls n → Made ctx.calls n = true
  single : ∀ before, before <+: ctx.calls → ∀ n m, Live before n → Live before m → n = m
  reused : ∀ c, ctx.compiler = some c → ∀ target, ctx.acquire kind.watched target = (.ok c, ctx)
  once : ∀ n, ctx.calls.countP (·.putsAway n) ≤ 1
  onlySetUp : ∀ before n fault, before ++ [.putAway n fault] <+: ctx.calls → Live before n
  released : (ctx.release kind.watched).2.compiler = none
  left : ∀ {α : Type} (body : Context (Watched X E) (Nat × C) → Except E α × Context (Watched X E) (Nat × C)),
    (ctx.within kind.watched body).2.compiler = none
  failed : ∀ target e, (ctx.acquire kind.watched target).1 = .error e →
    (ctx.acquire kind.watched target).2.compiler = none
  fresh : ctx.compiler = none → ∀ target, ∃ fault,
    ctx.calls ++ [.make fault] <+: (ctx.acquire kind.watched target).2.calls ∧
      ∀ c, (ctx.acquire kind.watched target).1 = .ok c → fault = none ∧ c.1 = ctx.calls.length

theorem Sound.held_iff (h : ctx.Sound) (n : Nat) : Live ctx.calls n ↔ ∃ c, ctx.compiler = some (n, c) := by
  rw [Orderly.live_iff h]
  unfold stage
  rcases ctx.compiler with _ | ⟨m, c⟩
  · simp
  · simp

/-- **Whatever is done with a context, its compilers live one at a time**: there is one that has been set up and not been
put away exactly if the context holds it, and then no other is made; none is put away twice, or without having been set
up; and once it has been put away, or could not be made or set up, whatever failed, the next one asked for is new. -/
theorem reaches_lifecycle {w : World X} (h : Reaches kind (empty (w.noted [])) ctx) : ctx.Lifecycle kind := by
  have hsound : ctx.Sound := h.sound (empty_sound w)
  constructor
  case held => exact hsound.held_iff
  case made => exact fun n hn => Orderly.made_of_live hsound hn
  case single =>
    intro before hbefore n m hn hm
    obtain ⟨stage, hstage⟩ := Orderly.of_before hsound hbefore
    exact hstage.live_unique hn hm
  case reused =>
    intro c hc target
    rcases acquire_cases kind target ctx with ⟨d, hd, hr⟩ | ⟨hnone, -⟩
    · rw [hr, Option.some.inj (hc.symm.trans hd)]
    · cases hc.symm.trans hnone
  case once => exact hsound.putsAway_le
  case onlySetUp =>
    intro before n fault hbefore
    obtain ⟨stage, hstage⟩ := Orderly.of_before hsound hbefore
    exact hstage.live_of_putAway
  case released => exact release_empties _ ctx
  case left =>
    intro α body
    rw [within_context]
    exact release_empties _ _
  case failed =>
    intro target e he
    rcases acquire_cases kind target ctx with
      ⟨c, -, hr⟩ | ⟨-, after, ⟨e, hr, hheld, -⟩ | ⟨e, hr, hheld, -⟩ | ⟨c, hr, -⟩⟩ <;>
      rw [hr] at he ⊢
    · cases he
    · exact hheld
    · exact hheld
    · cases he
  case fresh =>
    intro hnone target
    rcases acquire_cases kind target ctx with
      ⟨c, hc, -⟩ | ⟨-, after, ⟨e, hr, -, hcalls⟩ | ⟨e, hr, -, hcalls⟩ | ⟨c, hr, -, hcalls⟩⟩
    · cases hc.symm.trans hnone
    · refine ⟨some e, ⟨[], ?_⟩, by rw [hr]; exact nofun⟩
      rw [hr, hcalls, List.append_nil]
    · refine ⟨none, ?_, by rw [hr]; exact nofun⟩
      rw [hr, hcalls]
      exact List.prefix_append _ _
    · refine ⟨none, ?_, fun d hd => ⟨rfl, ?_⟩⟩
      · rw [hr, hcalls]
        exact List.prefix_append _ _
      · rw [hr] at hd
        rw [← Except.ok.inj hd]

/-- Compilers of which the calls with some numbers fail; the world counts the calls. -/
def erratic (faults : List Nat) : CompilerKind Nat Unit Unit where
  make := fun w => (if w.outside ∈ faults then .error () else .ok (), { w with outside := w.outside + 1 })
  setUp := fun _ _ w => (if w.outside ∈ faults then .error () else .ok (), { w with outside := w.outside + 1 })
  compile := fun _ _ w => (.ok true, { w with outside := w.outside + 1 })
  putAway := fun _ w => (if w.outside ∈ faults then some () else none, { w with outside := w.outside + 1 })

/-- No calls yet, and nothing on the disk. -/
def uncounted : World Nat := ⟨⟨[], []⟩, .blank 80, .blank 80, 0⟩

/-- A context of such compilers after one that could not be made, one that could not be set up, one in a block that was
left by a failure and could not be put away, and one that is in use. -/
def troubled : Context (Watched Nat Unit) (Nat × Unit) :=
  let kind := (erratic [0, 2, 5]).watched
  let failed := (((empty (uncounted.noted [])).acquire kind {}).2.acquire kind {}).2
  let left := (failed.within kind fun ctx => ((.error () : Except Unit Unit), (ctx.acquire kind {}).2)).2
  (left.acquire kind {}).2

theorem reaches_lifecycle_troubled : Reaches (erratic [0, 2, 5]) (empty (uncounted.noted [])) troubled ∧
    troubled.calls = [.make (some ()), .make none, .setUp 1 {} (some ()), .make none, .setUp 3 {} none,
      .putAway 3 (some ()), .make none, .setUp 6 {} none] ∧
    troubled.compiler = some (6, ()) ∧ troubled.Lifecycle (erratic [0, 2, 5]) := by
  have htroubled : Reaches (erratic [0, 2, 5]) (empty (uncounted.noted [])) troubled :=
    .acquire {} (.block (fun ctx => ((.error () : Except Unit Unit), (ctx.acquire (erratic [0, 2, 5]).watched {}).2))
      (.acquire {} (.acquire {} (.stay _))) (.acquire {} (.stay _)))
  exact ⟨htroubled, rfl, rfl, reaches_lifecycle htroubled⟩

end Context
end ScriptDriver
