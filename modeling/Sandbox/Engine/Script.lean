import Sandbox.Engine.Kit

namespace Sandbox.Engine

structure Rule where
  code : String
  limit : Option Nat
  verdict : Verdict

structure Script where
  rules : List (Rule × Nat)
  fallback : Option Verdict
  executions : Nat := 0

namespace Script

def use (code : String) : List (Rule × Nat) → Option Verdict × List (Rule × Nat)
  | [] => (none, [])
  | (rule, uses) :: rest =>
    if rule.code = code ∧ rule.limit.all (uses < ·) then
      (some rule.verdict, (rule, uses + 1) :: rest)
    else
      let (verdict, rest) := use code rest
      (verdict, (rule, uses) :: rest)

def execute (script : Script) (code : String) : Verdict × Script :=
  let (verdict, rules) := use code script.rules
  let verdict := (verdict.or script.fallback).getD (.output ⟨some code, none⟩)
  (verdict, { script with rules, executions := script.executions + 1 })

end Script

inductive Plan
  | publish
  | publishUnrecorded
  | fail (message : String)
  | publishThenFail (message : String)
  | drop
  | hold
  | publishAfter (span : Duration)
  | dropAfter (span : Duration)
  | library (path : String) (library : Option (Library Kit.State))

structure Timer where
  due : Duration
  slot : Nat
  mail : Mail

/-- The scripted engine with its starts: plans, how many starts there were, slots to be used later,
and for every recorded publication whether somebody waited for it. -/
structure Bench where
  script : Script
  plans : List Plan
  starts : Nat := 0
  timers : List Timer := []
  published : List Bool := []
  kit : Kit.State := {}

namespace Bench

def plan (bench : Bench) (start : Nat) : Plan :=
  (bench.plans[start]?.or bench.plans.getLast?).getD .publish

def start (bench : Bench) (now : Duration) (slot : Nat) : Start × Bench :=
  let plan := bench.plan bench.starts
  let engine := bench.starts + 1
  let bench := { bench with starts := bench.starts + 1 }
  let recorded := { bench with published := bench.published ++ [true] }
  let later (span : Duration) (mail : Mail) : Bench :=
    { bench with timers := bench.timers ++ [⟨now + span, slot, mail⟩] }
  match plan with
  | .publish => (⟨some (.published 0), .ok ()⟩, recorded)
  | .publishUnrecorded => (⟨some (.published 0), .ok ()⟩, bench)
  | .fail message => (⟨some .dropped, .error message⟩, bench)
  | .publishThenFail message => (⟨some (.published 0), .error message⟩, recorded)
  | .drop => (⟨some .dropped, .ok ()⟩, bench)
  | .hold => (⟨none, .ok ()⟩, bench)
  | .publishAfter span => (⟨none, .ok ()⟩, later span (.published 0))
  | .dropAfter span => (⟨none, .ok ()⟩, later span .dropped)
  | .library path library => match Library.fault? path library with
    | some message => (⟨some .dropped, .error message⟩, bench)
    | none => (⟨some (.published engine), .ok ()⟩, bench)

def execute (bench : Bench) (engine : Nat) (code : String) : Verdict × Bench :=
  match engine, bench.plan (engine - 1) with
  | _ + 1, .library _ (some library) =>
    let (verdict, kit) := library.run bench.kit code
    (verdict, { bench with kit })
  | _, _ =>
    let (verdict, script) := bench.script.execute code
    (verdict, { bench with script })

def provider : Provider Bench := ⟨start, execute⟩

end Bench

end Sandbox.Engine
