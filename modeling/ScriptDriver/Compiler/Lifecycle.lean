import ScriptDriver.Compiler.Basic
/-!
# Lifecycle — one compiler at a time

A context holds at most one compiler.  It is made and set up when it is first asked for, and put away when the context is
left, on every way out.  A compiler that could not be set up is not held.
-/
namespace ScriptDriver

variable {X C E α : Type}

/-- The compiler that is in use, and the world. -/
structure Context (X C : Type) where
  compiler : Option C
  world : World X

namespace Context

def empty (w : World X) : Context X C := ⟨none, w⟩

/-- The compiler in use; one is made and set up for the target if there is none. -/
def acquire (kind : CompilerKind X C E) (target : Target) (ctx : Context X C) : Except E C × Context X C :=
  match ctx.compiler with
  | some c => (.ok c, ctx)
  | none =>
    match kind.make ctx.world with
    | (.error e, w) => (.error e, ⟨none, w⟩)
    | (.ok c, w) =>
      -- it is held only once it has been set up
      match kind.setUp c target w with
      | (.error e, w) => (.error e, ⟨none, w⟩)
      | (.ok c, w) => (.ok c, ⟨some c, w⟩)

/-- Puts the compiler in use away, if there is one.  None is in use afterwards, whatever happens. -/
def release (kind : CompilerKind X C E) (ctx : Context X C) : Option E × Context X C :=
  match ctx.compiler with
  | none => (none, ctx)
  | some c =>
    match kind.putAway c ctx.world with
    | (fault, w) => (fault, ⟨none, w⟩)

/-- Does something with a context and then releases it.  If that fails, this is the failure that counts. -/
def within (kind : CompilerKind X C E) (body : Context X C → Except E α × Context X C) (ctx : Context X C) :
    Except E α × Context X C :=
  match body ctx with
  | (result, ctx) =>
    match release kind ctx with
    | (some e, ctx) => (.error e, ctx)
    | (none, ctx) => (result, ctx)

end Context

/-- Compiles a batch with a compiler that is made for it and put away afterwards. -/
def compileOnce (kind : CompilerKind X C E) (target : Target) (batch : Batch) (w : World X) :
    Except E Bool × World X :=
  let compile := fun ctx : Context X C =>
    match ctx.acquire kind target with
    | (.error e, ctx) => (.error e, ctx)
    | (.ok c, ctx) =>
      match kind.compile c batch ctx.world with
      | (result, w) => (result, { ctx with world := w })
  match (Context.empty w).within kind compile with
  | (result, ctx) => (result, ctx.world)

end ScriptDriver
