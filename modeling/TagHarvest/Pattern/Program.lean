/-
Programs of patterns. A program is a list of numbered steps, each of which names the steps after it; of
the two ways of a fork the first is preferred. A repetition whose body may match the empty text is
entered once before its loop, so that a run through an empty body ends it.
-/
import TagHarvest.Pattern.Basic

namespace TagHarvest.Pattern

inductive Step where
  /-- The whole pattern has matched. -/
  | done
  | char (s : Text.RangeSet) (next : Nat)
  | look (l : Look) (next : Nat)
  /-- Notes the position in a slot. -/
  | note (slot next : Nat)
  | fork (first second : Nat)

/-- Programs are built from their end: a part is given the number of the step after it. -/
abbrev Build := StateM (Array Step)

namespace Build

/-- Adds a step and tells its number. -/
def add (s : Step) : Build Nat := modifyGet fun steps => (steps.size, steps.push s)

/-- A fork into a body or past it, the body first unless the repetition is lazy. -/
def fork (isLazy : Bool) (body past : Nat) : Step :=
  if isLazy then .fork past body else .fork body past

/-- A loop: a fork into the body, which leads back to the fork, or past it. -/
def loop (isLazy : Bool) (body : Nat → Build Nat) (next : Nat) : Build (Nat × Nat) := do
  let here ← add .done
  let entry ← body here
  modify (·.set! here (fork isLazy entry next))
  return (here, entry)

/-- A part `count` times in a row. -/
def inRow (count : Nat) (body : Nat → Build Nat) (next : Nat) : Build Nat :=
  match count with
  | 0 => pure next
  | n + 1 => do Build.inRow n body (← body next)

/-- A part up to `count` times in a row, each time with the choice to go on to `past` instead. -/
def upTo (isLazy : Bool) (count : Nat) (body : Nat → Build Nat) (past : Nat) : Build Nat :=
  Build.inRow count (fun next => do add (fork isLazy (← body next) past)) past

/-- A repetition of a body. -/
def times (least : Nat) (most : Option Nat) (isLazy mayBeEmpty : Bool)
    (body : Nat → Build Nat) (next : Nat) : Build Nat :=
  match most with
  | some m => do Build.inRow least body (← upTo isLazy (m - least) body next)
  | none =>
    match least with
    | 0 => do
      let (here, entry) ← loop isLazy body next
      if mayBeEmpty then add (fork isLazy entry next) else return here
    | n + 1 => do
      let (_, entry) ← loop isLazy body next
      Build.inRow n body entry

/-- The characters of a text in a row. -/
def text : List Char → (next : Nat) → Build Nat
  | [], next => pure next
  | c :: cs, next => do add (.char [(c.toNat, c.toNat)] (← text cs next))

/-- The steps of a tree, before the step `next`. -/
def tree : Tree → (next : Nat) → Build Nat
  | .empty, next => pure next
  | .text cs, next => text cs next
  | .oneOf s, next => add (.char s next)
  | .look l, next => add (.look l next)
  | .group i t, next => do
    let close ← add (.note (2 * i + 1) next)
    let entry ← tree t close
    add (.note (2 * i) entry)
  | .sequence a b, next => do tree a (← tree b next)
  | .choice a b, next => do
    let second ← tree b next
    let first ← tree a next
    add (.fork first second)
  | .times least most isLazy t, next =>
    times least most isLazy (!t.takesCharacter) (tree t) next

end Build

structure Program where
  steps : Array Step
  entry : Nat

/-- The program of a pattern, whose match is the group of number 0. -/
def Program.ofTree (t : Tree) : Program :=
  let (entry, steps) := (do Build.tree (.group 0 t) (← Build.add .done) : Build Nat).run #[]
  ⟨steps, entry⟩

end TagHarvest.Pattern
