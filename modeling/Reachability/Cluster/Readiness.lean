import Reachability.Failure
import Reachability.Manifest.Object

namespace Reachability.Manifest.Deployment

/-- The difference of two counts, where 32 bits hold it. -/
def difference? (total updated : Int32) : Option Int32 :=
  if BitVec.ssubOverflow total.toBitVec updated.toBitVec then none else some (total - updated)

theorem ssubOverflow_iff {total updated : Int32} :
    BitVec.ssubOverflow total.toBitVec updated.toBitVec = true ↔
      2147483648 ≤ total.toInt - updated.toInt ∨ total.toInt - updated.toInt < -2147483648 := by
  simp only [BitVec.ssubOverflow, Int32.toInt_toBitVec, Nat.add_one_sub_one, Int.reducePow,
    ge_iff_le, Int.reduceNeg, Bool.or_eq_true, decide_eq_true_eq]

theorem difference?_eq_some_iff {total updated count : Int32} :
    difference? total updated = some count ↔ count.toInt = total.toInt - updated.toInt := by
  unfold difference?
  split
  next hover =>
    have hlt := count.toInt_lt
    have hle := count.le_toInt
    have hbeyond := ssubOverflow_iff.1 hover
    refine iff_of_false nofun fun hcount => ?_
    omega
  next hfits =>
    have hwithin := mt ssubOverflow_iff.2 hfits
    rw [Option.some.injEq, ← Int32.toInt_inj, Int32.toInt_sub,
      Int.bmod_eq_of_le (by omega) (by omega)]
    exact eq_comm

theorem difference?_eq_none_iff {total updated : Int32} (h : updated < total) :
    difference? total updated = none ↔ 2147483648 ≤ total.toInt - updated.toInt := by
  have hlt := Int32.lt_iff_toInt_lt.1 h
  unfold difference?
  split
  next hover =>
    have hbeyond := ssubOverflow_iff.1 hover
    refine iff_of_true rfl ?_
    omega
  next hfits =>
    have hwithin := mt ssubOverflow_iff.2 hfits
    refine iff_of_false nofun fun hmany => ?_
    omega

/-- The controller has seen the latest generation, and every desired replica is updated, available
and ready, with no other left. There is no judgement where the others are too many to be counted. -/
def readiness (d : Deployment) : Option (Except Unready Unit) :=
  let name := d.metadata.title
  let desired := d.replicas.getD 1
  match d.status with
  | none => some (.error (.withoutStatus name))
  | some s =>
    let updated := s.updated.getD 0
    let available := s.available.getD 0
    let ready := s.ready.getD 0
    let total := s.replicas.getD 0
    match d.metadata.generation, s.observedGeneration with
    | some generation, some observed =>
      if observed < generation then some (.error (.unobserved name generation observed))
      else settled name desired updated available ready total
    | _, _ => settled name desired updated available ready total
where
  /-- The judgement on the counts alone. -/
  settled (name : String) (desired updated available ready total : Int32) :
      Option (Except Unready Unit) :=
    if updated < desired then some (.error (.outdated name updated desired))
    else if updated < total then
      (difference? total updated).map fun remaining => .error (.terminating name remaining)
    else if available < desired ∨ ready < desired then
      some (.error (.unavailable name available desired ready))
    else some (.ok ())

end Reachability.Manifest.Deployment
