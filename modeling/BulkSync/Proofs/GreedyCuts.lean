import BulkSync.Proofs.Divisions

namespace BulkSync

/-- Ranges of which all but the last carry the target. -/
def Loaded (degree : Nat → Nat) (target : Nat) (ps : List Partition) : Prop :=
  ∀ p ∈ ps.dropLast, target ≤ weigh degree p.ids

/-- Ranges none of which goes on once it carries the target. -/
def Tight (degree : Nat → Nat) (target : Nat) (ps : List Partition) : Prop :=
  ∀ p ∈ ps, weigh degree p.ids.dropLast < target

section Ranges

variable {degree : Nat → Nat} {target : Nat} {p : Partition} {ps qs : List Partition}

theorem loaded_nil : Loaded degree target [] := by simp [Loaded]

theorem loaded_single (p : Partition) : Loaded degree target [p] := by simp [Loaded]

theorem Loaded.cons (hp : target ≤ weigh degree p.ids) (h : Loaded degree target ps) :
    Loaded degree target (p :: ps) := by
  cases ps with
  | nil => exact loaded_single p
  | cons q rest =>
    intro r hr
    rw [List.dropLast_cons_cons] at hr
    rcases List.mem_cons.mp hr with rfl | hr
    · exact hp
    · exact h r hr

theorem Loaded.head {q : Partition} (h : Loaded degree target (p :: q :: ps)) :
    target ≤ weigh degree p.ids :=
  h p (by simp)

theorem Loaded.tail (h : Loaded degree target (p :: ps)) : Loaded degree target ps := by
  cases ps with
  | nil => exact loaded_nil
  | cons q rest =>
    intro r hr
    refine h r ?_
    rw [List.dropLast_cons_cons]
    exact List.mem_cons_of_mem _ hr

/-- Ranges that carry the target use up what all of them weigh. -/
theorem Loaded.length_le (h : Loaded degree target ps) (filled : Filled ps) {parts : Nat}
    (hall : weigh degree (ps.flatMap Partition.ids) ≤ parts * target) : ps.length ≤ parts := by
  induction ps generalizing parts with
  | nil => exact Nat.zero_le _
  | cons p rest ih =>
    rw [List.flatMap_cons, weigh_append] at hall
    -- the last range may be light, but it is not empty and so takes a part of its own
    have hpos : 0 < weigh degree p.ids :=
      Nat.lt_of_lt_of_le (filled p List.mem_cons_self) (p.length_le_weigh degree)
    cases parts with
    | zero => omega
    | succ parts =>
      cases rest with
      | nil => exact Nat.succ_le_succ (Nat.zero_le _)
      | cons q rest =>
        have hhead := h.head
        rw [Nat.succ_mul] at hall
        have hrest : (q :: rest).length ≤ parts :=
          ih h.tail (fun r hr => filled r (List.mem_cons_of_mem _ hr)) (by omega)
        exact Nat.succ_le_succ hrest

/-- Ranges that do not go on once they carry the target stay ahead of others that carry it. -/
theorem Tight.length_ge {start later stop : Nat} (tight : Tight degree target ps)
    (hp : Tiles start ps stop) (hq : Tiles later qs stop) (hlater : start ≤ later)
    (filled : Filled qs) (loaded : Loaded degree target qs) : qs.length ≤ ps.length := by
  induction hp generalizing later qs with
  | nil start =>
    cases hq with
    | nil => exact Nat.le_refl _
    | @cons _ length _ rest hrest =>
      have hpos : 0 < length := filled _ List.mem_cons_self
      have hle := hrest.le
      omega
  | @cons start length stop rest hrest ih =>
    cases hq with
    | nil => exact Nat.zero_le _
    | @cons _ length' _ rest' hrest' =>
      cases rest' with
      | nil => exact Nat.succ_le_succ (Nat.zero_le _)
      | cons q qs =>
        -- a range that ended later would have carried the target without its last node
        have hends : start + length ≤ later + length' := by
          by_contra hpast
          have hlow : weigh degree (Partition.ids ⟨start, length⟩).dropLast < target :=
            tight _ List.mem_cons_self
          have hfull : target ≤ weigh degree (List.range' later length') := loaded.head
          have hwithin : weigh degree (List.range' later length') ≤
              weigh degree (List.range' start (length - 1)) :=
            weigh_within degree hlater (by omega)
          rw [Partition.ids_dropLast] at hlow
          exact Nat.lt_irrefl _ (Nat.lt_of_le_of_lt (Nat.le_trans hfull hwithin) hlow)
        have hothers : (q :: qs).length ≤ rest.length :=
          ih (fun r hr => tight r (List.mem_cons_of_mem _ hr)) hrest' hends
            (fun r hr => filled r (List.mem_cons_of_mem _ hr)) loaded.tail
        exact Nat.succ_le_succ hothers

/-- No range weighs more than the target and its last node do. -/
theorem Tight.weigh_le {bound : Nat} (tight : Tight degree target ps)
    (hbound : ∀ u ∈ ps.flatMap Partition.ids, degree u ≤ bound) :
    weigh degree (ps.flatMap Partition.ids) ≤ ps.length * (target + bound) := by
  induction ps with
  | nil => exact Nat.zero_le _
  | cons p rest ih =>
    rw [List.flatMap_cons] at hbound
    have hrest := ih (fun q hq => tight q (List.mem_cons_of_mem _ hq))
      fun u hu => hbound u (List.mem_append_right _ hu)
    have hp : weigh degree p.ids ≤ target + bound := by
      have hlow := tight p List.mem_cons_self
      cases hlast : p.ids.getLast? with
      | none =>
        rw [List.getLast?_eq_none_iff.mp hlast]
        exact Nat.zero_le _
      | some u =>
        have hu := hbound u (List.mem_append_left _ (List.mem_of_getLast? hlast))
        obtain ⟨us, hus⟩ := List.getLast?_eq_some_iff.mp hlast
        rw [hus, List.dropLast_concat] at hlow
        rw [hus, weigh_append, weigh_cons, weigh_nil]
        omega
    rw [List.flatMap_cons, weigh_append, List.length_cons, Nat.succ_mul]
    omega

theorem Tiles.length_le {start stop : Nat} (h : Tiles start ps stop) (filled : Filled ps) :
    start + ps.length ≤ stop := by
  induction h with
  | nil => exact Nat.le_refl _
  | @cons start length stop rest _ ih =>
    have hpos : 0 < length := filled _ List.mem_cons_self
    have hrest := ih fun q hq => filled q (List.mem_cons_of_mem _ hq)
    rw [List.length_cons]
    omega

end Ranges

/-- How ranges come out that are cut as soon as they carry the target. -/
structure Greedy (degree : Nat → Nat) (target : Nat) (ps : List Partition) : Prop where
  loaded : Loaded degree target ps
  tight : Tight degree target ps

section Cutting

variable {g : Graph} {degree : Nat → Nat} {workers target : Nat} {p : Partition}
  {ps : List Partition}

theorem greedy_nil : Greedy degree target [] :=
  ⟨loaded_nil, by simp [Tight]⟩

theorem Greedy.cons (hfull : target ≤ weigh degree p.ids)
    (htight : weigh degree p.ids.dropLast < target) (h : Greedy degree target ps) :
    Greedy degree target (p :: ps) :=
  ⟨h.loaded.cons hfull, List.forall_mem_cons.mpr ⟨htight, h.tight⟩⟩

/-- The weight that has been gathered is below the target whenever a node is looked at. -/
theorem cutByWeight_greedy {remaining node start weight : Nat} (htarget : 0 < target)
    (hd : ∀ u < node + remaining, g.degree u = .ok (degree u)) (hs : start ≤ node)
    (hgathered : weight = weigh degree (List.range' start (node - start))) (hlow : weight < target)
    (h : cutByWeight g target remaining node start weight = .ok ps) :
    Greedy degree target ps := by
  induction remaining generalizing node start weight ps with
  | zero =>
    cases h
    split
    next =>
      refine ⟨loaded_single _, fun p hp => ?_⟩
      obtain rfl := List.mem_singleton.mp hp
      have hle : weigh degree (List.range' start (node - start - 1)) ≤
          weigh degree (List.range' start (node - start)) :=
        weigh_within degree (Nat.le_refl _) (by omega)
      rw [Partition.ids_dropLast]
      exact Nat.lt_of_le_of_lt (hgathered ▸ hle) hlow
    next => exact greedy_nil
  | succ remaining ih =>
    have hcount : node + 1 - start = node - start + 1 := by omega
    have hnode : start + (node - start) = node := by omega
    have hnext : weight + (degree node + 1) =
        weigh degree (List.range' start (node + 1 - start)) := by
      rw [hcount, weigh_range_succ, hnode, ← hgathered]
    obtain ⟨own, hown, hcut⟩ := cutByWeight_succ h
    cases (hd node (by omega)).symm.trans hown
    rcases hcut with ⟨hfull, others, hothers, rfl⟩ | ⟨hbelow, hrest⟩
    · have hlast : (⟨start, node + 1 - start⟩ : Partition).ids.dropLast =
          List.range' start (node - start) := by
        rw [Partition.ids_dropLast, hcount, Nat.add_sub_cancel]
      refine .cons (hnext ▸ hfull) (by rwa [hlast, ← hgathered]) ?_
      exact ih (fun u hu => hd u (by omega)) (Nat.le_refl _) (by simp) htarget hothers
    · exact ih (fun u hu => hd u (by omega)) (by omega) hnext hbelow hrest

theorem degreePartitions_greedy (told : g.HasDegrees degree)
    (h : degreePartitions g workers = .ok ps) :
    Greedy degree ((g.relationships + g.nodes + (max workers 1 - 1)) / max workers 1) ps := by
  rcases degreePartitions_ok h with ⟨_, rfl⟩ | ⟨hn, hcut⟩
  · exact greedy_nil
  · have htarget : 0 < (g.relationships + g.nodes + (max workers 1 - 1)) / max workers 1 :=
      Nat.div_pos (by omega) (by omega)
    exact cutByWeight_greedy htarget (fun u hu => told.each u (by omega)) (Nat.le_refl 0)
      (by simp) htarget hcut

theorem degreePartitions_ids (h : degreePartitions g workers = .ok ps) :
    ps.flatMap Partition.ids = List.range g.nodes := by
  rw [(degreePartitions_tiles h).ids, Nat.sub_zero, List.range_eq_range']

theorem degreePartitions_length_le (told : g.HasDegrees degree)
    (h : degreePartitions g workers = .ok ps) : ps.length ≤ max workers 1 := by
  refine (degreePartitions_greedy told h).loaded.length_le (degreePartitions_filled h) ?_
  rw [degreePartitions_ids h, told.weigh_nodes]
  have hmod := Nat.mod_lt (g.relationships + g.nodes + (max workers 1 - 1))
    (show 0 < max workers 1 by omega)
  have hdiv := Nat.div_add_mod (g.relationships + g.nodes + (max workers 1 - 1)) (max workers 1)
  omega

end Cutting

end BulkSync
