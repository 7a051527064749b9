import BulkSync.Proofs.Matching

namespace BulkSync

variable {M R : Type}

/-- An entry without what depends on how the nodes are divided and ordered: the task, and the
messages as they came. -/
def Entry.bare : Entry M R → Entry M R
  | .compute superstep _ node _ calls result => .compute superstep 0 node ⟨[]⟩ calls result
  | x => x

section Bare

variable (x : Entry M R)

@[simp]
theorem bare_sentTo (node : Nat) : x.bare.sentTo node = x.sentTo node := by cases x <;> rfl

@[simp]
theorem bare_sends : x.bare.sends = x.sends := by cases x <;> rfl

@[simp]
theorem bare_gave (key : String) : x.bare.gave key = x.gave key := by cases x <;> rfl

@[simp]
theorem bare_raised : x.bare.raised = x.raised := by cases x <;> rfl

@[simp]
theorem bare_task_isSome : x.bare.task?.isSome = x.task?.isSome := by cases x <;> rfl

end Bare

theorem isHalted_lt {set : HaltSet} {node : Nat} {halted : Bool}
    (h : set.isHalted node = .ok halted) : node < set.nodes := by
  unfold HaltSet.isHalted at h
  split at h
  next hn => exact hn
  next => cases h

/-- A visit that one desk has made another one makes too, with the same calls and the same
results, or refuses. -/
theorem Visited.matches {engine engine' : Engine M R} {superstep task node : Nat} {d d' e : Desk M}
    {new : List (Entry M R)} (hg : engine'.graph = engine.graph)
    (hc : engine'.computation = engine.computation) (hl : engine.computation.Local)
    (hm : d.state.Matches node d'.state)
    (hs : ∀ slot, d.state.mail.delivered[node]? = some slot →
      ∃ slot', d'.state.mail.delivered[node]? = some slot' ∧ slot.toList.Perm slot'.toList)
    (h : Visited engine superstep task node d new e) (task' : Nat)
    (journal : Array (Entry M R)) :
    (∃ new' e', Visited engine' superstep task' node d' new' e' ∧
      new'.map Entry.bare = new.map Entry.bare ∧ e.state.Matches node e'.state) ∨
    ∃ f work, Work.visit engine' superstep task' node ⟨d', journal⟩ = .error f work ∧
      d'.Refuses (new.map Entry.sends).sum f := by
  have hhalted : ∀ halted, d.state.halted.isHalted node = .ok halted →
      d'.state.halted.isHalted node = .ok halted := by
    intro halted hh
    have hlt := isHalted_lt hh
    rw [HaltSet.isHalted_eq_bit hm.sound hlt, hm.bit] at hh
    rw [HaltSet.isHalted_eq_bit hm.sound' (by rw [hm.nodes]; exact hlt), hh]
  cases h with
  | @asleep slot later delivered silent halted =>
    obtain ⟨slot', hslot', hperm⟩ := hs slot delivered
    rw [silent] at hperm
    have hsilent := List.nil_perm.mp hperm
    refine .inl ⟨[], _, .asleep later hslot' hsilent (hhalted true halted), rfl, ?_⟩
    exact hm.of_fits (State.taken_fits node _) (State.taken_fits node _) hm.values hm.bit
  | @awake slot woken inits begun calls r e delivered due wake init compute =>
    obtain ⟨slot', hslot', hperm⟩ := hs slot delivered
    have hdue' : superstep ≠ 0 → ∃ halted, d'.state.halted.isHalted node = .ok halted ∧
        (halted && slot'.toList.isEmpty) = false := by
      intro hlater
      obtain ⟨halted, hh, hand⟩ := due hlater
      exact ⟨halted, hhalted halted hh, by rwa [hperm.isEmpty_eq] at hand⟩
    have hlt := (HaltSet.update_ok wake).1
    obtain ⟨woken', hwake'⟩ : ∃ woken', d'.state.halted.wake node = .ok () woken' :=
      ⟨_, HaltSet.update_exists _ hm.sound' (by rw [hm.nodes]; exact hlt)⟩
    have hwoken : (d.state.woken node woken).Matches node (d'.state.woken node woken') := by
      refine hm.of_fits (State.woken_fits wake) (State.woken_fits hwake') hm.values ?_
      simp [HaltSet.wake_bit wake, HaltSet.wake_bit hwake']
    obtain ⟨begun', hinit', hvalues⟩ : ∃ begun', Initialized engine' superstep node
        (d'.state.woken node woken') inits begun' ∧
        begun.values.AgreeAt node begun'.values := by
      cases init with
      | later hlater => exact ⟨_, .later hlater, hwoken.values⟩
      | @first own answer t hfirst hp =>
        obtain ⟨t', hp', hagree⟩ := perform_own_agree _ hwoken.values hp
        exact ⟨t', .first hfirst (by rw [hc, hg]; exact hp'), hagree⟩
    have hbegun : begun.Matches node begun' := by
      refine hwoken.of_fits init.fits hinit'.fits hvalues ?_
      rw [init.ownPerformed.2.1, hinit'.ownPerformed.2.1]
      exact hwoken.bit
    have hsame : engine'.computation.compute ⟨node, superstep, engine'.graph.nodes⟩
        ⟨slot'.toList⟩ = engine.computation.compute ⟨node, superstep, engine.graph.nodes⟩
          ⟨slot.toList⟩ := by
      rw [hc, hg]
      exact (hl.unordered _ hperm).symm
    have hkeeps := hl.keeps ⟨node, superstep, engine.graph.nodes⟩ ⟨slot.toList⟩
    have hdesks : (⟨begun, d.tally⟩ : Desk M).state.Matches node
        (⟨begun', d'.tally⟩ : Desk M).state := hbegun
    rcases perform_matches _ hkeeps hdesks compute with
      ⟨e', hp', he'⟩ | ⟨f, e', calls', hp', hr⟩
    · refine .inl ⟨_, _, .awake (r := r) hslot' hdue' hwake' hinit' (by rw [hsame, hg]; exact hp'),
        ?_, he'⟩
      simp [Entry.bare]
    · obtain ⟨journal', _, hvisit⟩ :=
        visit_awake_eq engine' task' journal hslot' hdue' hwake' hinit'
      refine .inr ⟨f, ⟨e', journal'.push
        (.compute superstep task' node ⟨slot'.toList⟩ calls' (.error f))⟩, ?_, ?_⟩
      · rw [hvisit]
        simp only [Work.compute, hsame]
        rw [hg, hp']
      · have hfits := (State.woken_fits hwake').trans hinit'.fits
        obtain ⟨_, hsends, _⟩ := inits_silent init.ownPerformed.2.2.2.2.2
        unfold Desk.Refuses at hr ⊢
        rw [show (⟨begun', d'.tally⟩ : Desk M).state = begun' from rfl, hfits.declared,
          hfits.delivery] at hr
        rw [List.map_append, List.sum_append, hsends]
        simpa [Entry.sends] using hr

end BulkSync
