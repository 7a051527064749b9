import BulkSync.Components
import BulkSync.Proofs.Matching
import BulkSync.Proofs.MergingRounds

namespace BulkSync

theorem lesserLabel_toInt (a b : Int64) : (lesserLabel a b).toInt = min a.toInt b.toInt := by
  unfold lesserLabel
  split
  next h =>
    have hlt := Int64.lt_iff_toInt_lt.mp h
    omega
  next h =>
    have hge := mt Int64.lt_iff_toInt_lt.mpr h
    omega

theorem lesserLabel_comm (a b : Int64) : lesserLabel a b = lesserLabel b a := by
  apply Int64.toInt_inj.mp
  rw [lesserLabel_toInt, lesserLabel_toInt, Int.min_comm]

theorem lesserLabel_assoc (a b c : Int64) :
    lesserLabel (lesserLabel a b) c = lesserLabel a (lesserLabel b c) := by
  apply Int64.toInt_inj.mp
  simp only [lesserLabel_toInt, Int.min_assoc]

theorem minimum_lawful : Combiner.Lawful (Combiner.min : Combiner Int64) :=
  lawful_total_iff.mpr ⟨lesserLabel_assoc, lesserLabel_comm⟩

/-- The smallest label does not depend on the order in which labels are heard of. -/
theorem foldl_lesserLabel_perm {l m : List Int64} (h : l.Perm m) (current : Int64) :
    l.foldl lesserLabel current = m.foldl lesserLabel current := by
  induction h generalizing current with
  | nil => rfl
  | cons a _ ih => exact ih (lesserLabel current a)
  | swap a b l =>
    simp only [List.foldl_cons]
    rw [lesserLabel_assoc, lesserLabel_comm b a, ← lesserLabel_assoc]
  | trans _ _ ih ih' => exact (ih current).trans (ih' current)

theorem minimum_fold {messages : List Int64} {m : Int64}
    (h : Combiner.min.fold messages = .ok (some m)) (current : Int64) :
    messages.foldl lesserLabel current = lesserLabel current m := by
  cases messages with
  | nil => cases h
  | cons first rest =>
    have hrest : ∀ (l : List Int64) (a : Int64),
        l.foldlM (Combiner.min : Combiner Int64) a = .ok (l.foldl lesserLabel a) := by
      intro l
      induction l with
      | nil => exact fun _ => rfl
      | cons b l ih => exact fun a => ih (lesserLabel a b)
    have hm : m = rest.foldl lesserLabel first := by
      simp only [Combiner.fold, hrest, bind, Except.bind, pure, Except.pure, Except.ok.injEq,
        Option.some.injEq] at h
      exact h.symm
    have : Std.Associative lesserLabel := ⟨lesserLabel_assoc⟩
    rw [hm, List.foldl_cons, List.foldl_assoc]

/-- A node learns as much from the smallest label as from all of them. -/
theorem components_folds (graph : Graph) : components.Folds graph .min := by
  intro node superstep messages m h d e _
  have hsame : components.compute ⟨node, superstep, graph.nodes⟩ ⟨messages⟩ =
      components.compute ⟨node, superstep, graph.nodes⟩ ⟨[m]⟩ := by
    have hone : ∀ current, messages.foldl lesserLabel current = [m].foldl lesserLabel current :=
      minimum_fold h
    simp only [components, hone]
  rw [hsame]

/-- Labelling keeps to the own label and does not depend on the order of the messages. -/
theorem components_local : components.Local where
  keeps := by
    intro place messages
    refine .bind ⟨trivial, fun _ => trivial⟩ fun current => ?_
    dsimp only
    have htell : Program.Asks (NodeOp.Keeps place.node)
        (if messages.waiting.foldl lesserLabel current < current || place.superstep == 0 then do
          NodeProgram.sendNeighbors (messages.waiting.foldl lesserLabel current)
          NodeProgram.vote
        else NodeProgram.vote) := by
      split
      · exact .bind ⟨trivial, fun _ => trivial⟩ fun _ => ⟨trivial, fun _ => trivial⟩
      · exact ⟨trivial, fun _ => trivial⟩
    split
    · exact .bind ⟨trivial, fun _ => trivial⟩ fun _ => htell
    · exact htell
  unordered := by
    intro place l m h
    simp only [components, foldl_lesserLabel_perm h]

end BulkSync
