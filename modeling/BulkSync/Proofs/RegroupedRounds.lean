import BulkSync.Proofs.MatchingRounds
import BulkSync.Proofs.OrderedTotals
import BulkSync.Proofs.Regrouping

namespace BulkSync

variable {M R : Type}

theorem Visited.unique {engine : Engine M R} {superstep task node : Nat} {d e e' : Desk M}
    {new new' : List (Entry M R)} (h : Visited engine superstep task node d new e)
    (h' : Visited engine superstep task node d new' e') : new' = new ∧ e' = e := by
  obtain ⟨journal, hj, hok⟩ := h.ok #[]
  obtain ⟨journal', hj', hok'⟩ := h'.ok #[]
  rw [hok] at hok'
  cases hok'
  rw [hj] at hj'
  exact ⟨by simpa using hj'.symm, rfl⟩

theorem merged_gathering {s : State M} {partials : Totals} {aggregates : Aggregates}
    (h : s.aggregates.merge partials = .ok aggregates) :
    s.withAggregates aggregates = s.gathering aggregates.gathered := by
  obtain ⟨hdeclared, hpublished, _⟩ := aggregates_merge_ok h
  obtain ⟨declared, gathered, published⟩ := aggregates
  have hd : declared = s.aggregates.declared := hdeclared
  have hp : published = s.aggregates.published := hpublished
  rw [hd, hp]
  rfl

section Rounds

variable {engine engine' : Engine M R} {superstep : Nat} {begun begun' round round' : Round M R}
  {moves moves' : List Move} {es es' : List (Entry M R)}

theorem Played.unvisited (h : Played engine superstep begun moves es round)
    (hn : moves.filterMap Move.node? = []) :
    es = [] ∧ ∃ totals, round.state = begun.state.gathering totals := by
  induction h with
  | start => exact ⟨rfl, begun.state.aggregates.gathered, rfl⟩
  | visit =>
    rw [nodes_visit] at hn
    simp at hn
  | @finish _ _ _ _ _ aggregates played found working merged ih =>
    rw [nodes_finish] at hn
    obtain ⟨hnil, totals, hstate⟩ := ih hn
    refine ⟨hnil, aggregates.gathered, (merged_gathering merged).trans ?_⟩
    rw [hstate]
    rfl

/-- Moves that end with the visit of a node lead through that visit. -/
theorem Played.split (h : Played engine superstep begun moves es round) {before after : List Nat}
    {node : Nat} (hn : moves.filterMap Move.node? = before ++ node :: after) :
    ∃ done task middle tally earlier new e later,
      Played engine superstep begun done earlier middle ∧
      done.filterMap Move.node? = before ∧
      Visited engine superstep task node ⟨middle.state, tally⟩ new e ∧
      es = earlier ++ new ++ later := by
  induction h generalizing after with
  | start => simp at hn
  | @visit moves es round task other tally new e journal played found working visited written ih =>
    rw [nodes_visit] at hn
    rcases List.eq_nil_or_concat after with rfl | ⟨after, last, rfl⟩
    · obtain ⟨hbefore, hlast⟩ := List.append_inj' hn rfl
      cases hlast
      exact ⟨moves, task, round, tally, es, new, e, [], played, hbefore, visited, by simp⟩
    · rw [List.concat_eq_append, ← List.cons_append, ← List.append_assoc] at hn
      obtain ⟨done, t, middle, tly, earlier, new', e', later, hp, hd, hv, hes⟩ :=
        ih (List.append_inj' hn rfl).1
      exact ⟨done, t, middle, tly, earlier, new', e', later ++ new, hp, hd, hv,
        by rw [hes, List.append_assoc]⟩
  | finish played found working merged ih =>
    rw [nodes_finish] at hn
    exact ih hn

/-- Executing the visits of the same nodes in the same order runs the same callbacks and leaves the
same state, but for what the tasks that have handed over have gathered. -/
theorem Played.regroup (hg : engine'.graph = engine.graph)
    (hc : engine'.computation = engine.computation)
    (hb : ∃ totals, begun'.state = begun.state.gathering totals)
    (h : Played engine superstep begun moves es round)
    (h' : Played engine' superstep begun' moves' es' round')
    (hn : moves'.filterMap Move.node? = moves.filterMap Move.node?) :
    es'.map Entry.untasked = es.map Entry.untasked ∧
      ∃ totals, round'.state = round.state.gathering totals := by
  induction h generalizing moves' es' round' with
  | start =>
    obtain ⟨hnil, totals, hstate⟩ := h'.unvisited hn
    obtain ⟨start, hstart⟩ := hb
    refine ⟨by rw [hnil], totals, ?_⟩
    rw [hstate, hstart]
    rfl
  | @finish moves es round task tally aggregates played found working merged ih =>
    rw [nodes_finish] at hn
    obtain ⟨hes, totals, hstate⟩ := ih h' hn
    refine ⟨hes, totals, hstate.trans ?_⟩
    rw [merged_gathering merged]
    rfl
  | @visit moves es round task node tally new e journal played found working visited written ih =>
    rw [nodes_visit] at hn
    -- the last visit of the second list of moves is the same one; hand-overs may follow it
    induction h' with
    | start => simp at hn
    | @finish moves' es' round' task' tally' aggregates' played' found' working' merged' ih' =>
      rw [nodes_finish] at hn
      obtain ⟨hes, totals, hstate⟩ := ih' hn
      refine ⟨hes, aggregates'.gathered, (merged_gathering merged').trans ?_⟩
      rw [hstate]
      rfl
    | @visit moves' es' round' task' node' tally' new' e' journal' played' found' working' visited'
        written' ih' =>
      rw [nodes_visit] at hn
      obtain ⟨hbefore, hlast⟩ := List.append_inj' hn rfl
      cases hlast
      obtain ⟨hes, totals, hstate⟩ := ih played' hbefore
      rw [hstate] at visited'
      rcases visited.regroup hg hc task' totals tally' #[] with
        ⟨again, tally'', hvisited, huntasked⟩ | ⟨f, work, hwork, _⟩
      · obtain ⟨hnew, he⟩ := hvisited.unique visited'
        rw [hnew, he]
        exact ⟨by rw [List.map_append, List.map_append, hes, huntasked], totals, rfl⟩
      · obtain ⟨_, _, hok⟩ := visited'.ok #[]
        rw [hwork] at hok
        cases hok

end Rounds

end BulkSync
