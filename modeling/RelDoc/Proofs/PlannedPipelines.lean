import RelDoc.Pipeline.Basic
import RelDoc.Plan.Strategy
import RelDoc.Proofs.RowCounts

namespace RelDoc

namespace Pipeline

theorem run_cons (stage : Stage) (rest : List Stage) (docs : List Document) :
    run ((stage :: rest).map Stage.toDocument) docs =
      (Pipeline.stage stage.name stage.argument docs).bind (run (rest.map Stage.toDocument)) := rfl

theorem run_append (front rest : List Stage) (docs : List Document) :
    run ((front ++ rest).map Stage.toDocument) docs =
      (run (front.map Stage.toDocument) docs).bind (run (rest.map Stage.toDocument)) := by
  induction front generalizing docs with
  | nil => rfl
  | cons first more ih =>
    rw [List.cons_append, run_cons, run_cons]
    rcases Pipeline.stage first.name first.argument docs with e | docs
    · rfl
    · exact ih docs

end Pipeline

namespace Plan

variable {p : Plan} {s : Settings}

def aggregateColumns (p : Plan) : List String := (p.aggregate.map Aggregate.columns).getD []

def groupSpecOn (p : Plan) (paths : List String) : Document :=
  match p.aggregate.bind fun a => aggregateRule a.function paths with
  | some rule => p.groupFields.insert aggregateField rule
  | none => p.groupFields

def orderedStages (s : Settings) (p : Plan) (filter : Document)
    (targets : List (Option String × String)) : List Stage :=
  ((nonempty? filter).map Stage.matching).toList ++ (targets.filterMap Prod.fst).map .unwind ++
    [.group (p.groupSpecOn (targets.map Prod.snd))] ++
    ((nonempty? (p.sortFields s)).map Stage.sort).toList

def cutStages (skip limit : Option UInt64) : List Stage :=
  ((positive? skip).map Stage.skip).toList ++ ((positive? limit).map Stage.limit).toList

def projectStages (p : Plan) : List Stage := ((nonempty? p.projection).map Stage.project).toList

theorem aggregateStages_eq (s : Settings) (p : Plan) (filter : Document) :
    p.aggregateStages s filter = (p.aggregateColumns.mapM columnTarget).map fun targets =>
      p.orderedStages s filter targets ++ (cutStages p.skip p.limit ++ p.projectStages) := by
  rw [aggregateStages, aggregateColumns]
  rcases ((p.aggregate.map Aggregate.columns).getD []).mapM columnTarget with e | targets
  · rfl
  · simp only [bind, Except.bind, pure, Except.pure, Except.map, orderedStages, cutStages,
      projectStages, List.append_assoc]
    rfl

section cut

variable {α β : Type}

def afterSkip (skip : Option UInt64) (rows : List α) : List α :=
  match positive? skip with
  | some n => rows.drop (countTaken n.toNat)
  | none => rows

def upToLimit (limit : Option UInt64) (rows : List α) : List α :=
  match positive? limit with
  | some n => rows.take (countTaken n.toNat)
  | none => rows

def cut (skip limit : Option UInt64) (rows : List α) : List α := upToLimit limit (afterSkip skip rows)

theorem map_cut (f : α → β) (skip limit : Option UInt64) (rows : List α) :
    (cut skip limit rows).map f = cut skip limit (rows.map f) := by
  unfold cut upToLimit afterSkip
  split <;> split <;> simp only [List.map_take, List.map_drop]

theorem positive?_some {n : UInt64} (hn : n ≠ 0) : positive? (some n) = some n :=
  Option.filter_eq_some_iff.mpr ⟨rfl, by simpa using hn⟩

theorem toNat_pos_of_positive? {limit : Option UInt64} {n : UInt64} (h : positive? limit = some n) :
    0 < n.toNat := by
  have hn : n ≠ 0 := of_decide_eq_true (Option.filter_eq_some_iff.mp h).2
  have hzero : n.toNat ≠ 0 := fun heq => hn (UInt64.toNat_inj.mp heq)
  omega

theorem afterSkip_some {rows : List α} (h : rows.length < 2 ^ 53) (n : UInt64) :
    afterSkip (some n) rows = rows.drop n.toNat := by
  by_cases hn : n = 0
  · rw [hn]
    rfl
  · rw [afterSkip, positive?_some hn]
    exact drop_countTaken h _

theorem upToLimit_some {rows : List α} (h : rows.length < 2 ^ 53) {n : UInt64} (hn : n ≠ 0) :
    upToLimit (some n) rows = rows.take n.toNat := by
  rw [upToLimit, positive?_some hn]
  exact take_countTaken h _

theorem upToLimit_of_le (rows : List α) {n : UInt64} (hn : n ≠ 0) (h : n.toNat ≤ 2 ^ 53) :
    upToLimit (some n) rows = rows.take n.toNat := by
  rw [upToLimit, positive?_some hn]
  change rows.take (countTaken n.toNat) = _
  rw [countTaken_eq h]

theorem cut_of_le (rows : List α) {skip limit : Option UInt64}
    (hskip : ∀ n, skip = some n → n.toNat ≤ 2 ^ 53)
    (hlimit : ∀ n, limit = some n → n.toNat ≤ 2 ^ 53) : cut skip limit rows =
      let rest := rows.drop (skip.getD 0).toNat
      if 0 < (limit.getD 0).toNat then rest.take (limit.getD 0).toNat else rest := by
  have hafter : afterSkip skip rows = rows.drop (skip.getD 0).toNat := by
    rcases skip with _ | n
    · rfl
    · by_cases hn : n = 0
      · rw [hn]
        rfl
      · rw [afterSkip, positive?_some hn]
        change rows.drop (countTaken n.toNat) = _
        rw [countTaken_eq (hskip n rfl)]
        rfl
  rw [cut, hafter]
  rcases limit with _ | n
  · rfl
  · by_cases hn : n = 0
    · rw [hn]
      rfl
    · rw [upToLimit_of_le _ hn (hlimit n rfl)]
      exact (if_pos (toNat_pos_of_positive? (positive?_some hn))).symm

theorem cut_some {rows : List α} (h : rows.length < 2 ^ 53) (skip : UInt64) {limit : UInt64}
    (hlimit : limit ≠ 0) :
    cut (some skip) (some limit) rows = (rows.drop skip.toNat).take limit.toNat := by
  have hrest : (rows.drop skip.toNat).length < 2 ^ 53 := by
    rw [List.length_drop]
    omega
  rw [cut, afterSkip_some h, upToLimit_some hrest hlimit]

end cut

theorem run_skip (skip : Option UInt64) (docs : List Document) :
    Pipeline.run (((positive? skip).map Stage.skip).toList.map Stage.toDocument) docs =
      .ok (afterSkip skip docs) := by
  rw [afterSkip]
  rcases positive? skip with _ | n
  · rfl
  · change ((Pipeline.count "$skip" (countValue n.toNat)).map docs.drop).bind (Pipeline.run []) = _
    rw [count_countValue]
    rfl

theorem run_limit (limit : Option UInt64) (docs : List Document) :
    Pipeline.run (((positive? limit).map Stage.limit).toList.map Stage.toDocument) docs =
      .ok (upToLimit limit docs) := by
  rw [upToLimit]
  rcases positive? limit with _ | n
  · rfl
  · change ((Pipeline.count "$limit" (countValue n.toNat)).map docs.take).bind (Pipeline.run []) = _
    rw [count_countValue]
    rfl

theorem run_cutStages (skip limit : Option UInt64) (docs : List Document) :
    Pipeline.run ((cutStages skip limit).map Stage.toDocument) docs = .ok (cut skip limit docs) := by
  rw [cutStages, Pipeline.run_append, run_skip]
  exact run_limit limit (afterSkip skip docs)

def shownRow (p : Plan) (row : Document) : Document :=
  match nonempty? p.projection with
  | some spec => row.project spec
  | none => row

theorem run_projectStages (p : Plan) (docs : List Document) :
    Pipeline.run (p.projectStages.map Stage.toDocument) docs = .ok (docs.map p.shownRow) := by
  rw [projectStages]
  unfold shownRow
  rcases nonempty? p.projection with _ | spec
  · exact congrArg Except.ok (List.map_id docs).symm
  · rfl

theorem run_stages (front : List Stage) (docs : List Document) :
    Pipeline.run ((front ++ (cutStages p.skip p.limit ++ p.projectStages)).map Stage.toDocument) docs =
      (Pipeline.run (front.map Stage.toDocument) docs).map fun rows =>
        (cut p.skip p.limit rows).map p.shownRow := by
  rw [Pipeline.run_append]
  rcases Pipeline.run (front.map Stage.toDocument) docs with e | rows
  · rfl
  · change Pipeline.run ((cutStages p.skip p.limit ++ p.projectStages).map Stage.toDocument) rows = _
    rw [Pipeline.run_append, run_cutStages]
    exact run_projectStages p _

end Plan

end RelDoc
