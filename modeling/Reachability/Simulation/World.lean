import Reachability.Simulation.Store
import Reachability.Wait.Run

namespace Reachability.Simulation

/-- How some calls are answered in place of the cluster: late, never, with a failure, or with a
given answer. -/
structure Rule where
  applies : Request → Bool
  /-- So many calls are passed over first. -/
  skip : Nat := 0
  /-- So many calls are answered at most. -/
  times : Option Nat := none
  delay : Nat := 0
  hangs : Bool := false
  failure : Option Failure := none
  answer : (r : Request) → Option r.Answer := fun _ => none

/-- A cluster and the rules about it. -/
structure Machine where
  store : Store
  rules : List Rule := []

/-- The rule for a call: the first one that applies and is not used up. What a rule passes over or
answers is counted. -/
def takeRule (r : Request) : List Rule → Option Rule × List Rule
  | [] => (none, [])
  | rule :: rest =>
    if rule.applies r && rule.times != some 0 then
      if rule.skip = 0 then (some rule, { rule with times := rule.times.map (· - 1) } :: rest)
      else
        let (found, rest) := takeRule r rest
        (found, { rule with skip := rule.skip - 1 } :: rest)
    else
      let (found, rest) := takeRule r rest
      (found, rule :: rest)

/-- A command whose vantage pod was chosen at random: it shows no difference which pod runs it. -/
def isVantageCommand : List String → Bool
  | "nc" :: _ => true
  | ["nslookup", name] => name != "kubernetes.default"
  | _ => false

/-- A request with the pod left out, if any pod could have made it. -/
def withVantagePodHidden (hidesVantagePod : Bool) : Request → Request
  | .exec pod container command =>
    if hidesVantagePod && isVantageCommand command then .exec ⟨pod.space, "*"⟩ "*" command
    else .exec pod container command
  | r => r

def shownPod : Request → ObjectKey
  | .exec pod _ _ => pod
  | _ => ⟨"", ""⟩

/-- The state of the machines after one of them has answered. -/
def answerFrom (machines : List Machine) (id : Nat) (shown : ObjectKey) (r : Request) :
    List Machine × Except Failure r.Answer :=
  match machines[id]? with
  | some machine =>
    let (store, answer) := machine.store.answer shown r
    (machines.set id { machine with store }, answer)
  | none => (machines, .error (.api (.transport "no such cluster")))

/-- The clusters by number. Random choices always fall on the first. With `hidesVantagePod`, calls
that any client pod may make show no pod. -/
def world (hidesVantagePod : Bool) : Wait.World clusterApi where
  State := List Machine
  start machines call :=
    let r := call.request
    let shown := withVantagePodHidden hidesVantagePod r
    let id := call.cluster.id
    let plain := fun machines => answerFrom machines id (shownPod shown) r
    match machines[id]? with
    | none => (machines, some (0, plain))
    | some machine =>
      let (rule, rules) := takeRule shown machine.rules
      let machines := machines.set id { machine with rules }
      match rule with
      | none => (machines, some (0, plain))
      | some rule =>
        if rule.hangs then (machines, none)
        else
          (machines, some (rule.delay, fun machines =>
            match rule.failure, rule.answer r with
            | some f, _ => (machines, .error f)
            | none, some a => (machines, .ok a)
            | none, none => plain machines))
  choose machines _ := (machines, ⟨0, Nat.succ_pos _⟩)

/-- The calls that the rules and the rejected deletions of the machines can make fail one by one: a
wait that goes on longer than that goes on forever. -/
def patience (machines : List Machine) : Nat :=
  machines.foldl
    (fun n m => n + m.store.rejections + m.rules.foldl (fun n r => n + r.skip + r.times.getD 0) 2) 2

end Reachability.Simulation
