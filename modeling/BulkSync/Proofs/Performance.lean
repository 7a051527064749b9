import BulkSync.Program

namespace BulkSync

variable {s : Signature} {σ τ α : Type}

/-- The operations a program may ask for, whatever it is answered. -/
def Program.Asks (P : s.Op → Prop) : Program s α → Prop
  | .done _ => True
  | .fail _ => True
  | .call op next => P op ∧ ∀ x, (next x).Asks P

theorem Program.Asks.bind {β : Type} {P : s.Op → Prop} {p : Program s α} {f : α → Program s β}
    (hp : p.Asks P) (hf : ∀ a, (f a).Asks P) : (p >>= f).Asks P := by
  induction p with
  | done a => exact hf a
  | fail e => trivial
  | call op next ih => exact ⟨hp.1, fun x => ih x (hp.2 x)⟩

theorem perform_call_ok {handle : Handler s σ} {op : s.Op} {next : s.Answer op → Program s α}
    {state state' : σ} {x : s.Answer op} (h : handle op state = .ok x state') :
    (Program.call op next).perform handle state =
      ⟨((next x).perform handle state').state, ⟨op, x⟩ :: ((next x).perform handle state').calls,
        ((next x).perform handle state').result⟩ := by
  simp only [Program.perform, h]

theorem perform_call_error {handle : Handler s σ} {op : s.Op} {next : s.Answer op → Program s α}
    {state state' : σ} {f : Fault} (h : handle op state = .error f state') :
    (Program.call op next).perform handle state = ⟨state', [], .error f⟩ := by
  simp only [Program.perform, h]

/-- A program goes on where the one before it ended. -/
theorem perform_bind_ok_iff {β : Type} {handle : Handler s σ} {p : Program s α}
    {f : α → Program s β} {state end' : σ} {calls : List (Call s)} {b : β} :
    (p >>= f).perform handle state = ⟨end', calls, .ok b⟩ ↔
      ∃ mid first a later, p.perform handle state = ⟨mid, first, .ok a⟩ ∧
        (f a).perform handle mid = ⟨end', later, .ok b⟩ ∧ calls = first ++ later := by
  induction p generalizing state calls with
  | done a =>
    constructor
    · exact fun h => ⟨state, [], a, calls, rfl, h, rfl⟩
    · rintro ⟨mid, first, a', later, hp, hf, rfl⟩
      cases hp
      exact hf
  | fail e =>
    constructor
    · intro h
      cases h
    · rintro ⟨mid, first, a', later, hp, -⟩
      cases hp
  | call op next ih =>
    change (Program.call op fun x => next x >>= f).perform handle state = _ ↔ _
    cases hop : handle op state with
    | error e mid =>
      rw [perform_call_error hop, perform_call_error hop]
      constructor
      · intro h
        cases h
      · rintro ⟨mid, first, a', later, hp, -⟩
        cases hp
    | ok x mid =>
      rw [perform_call_ok hop, perform_call_ok hop]
      constructor
      · intro h
        generalize hrest : (next x >>= f).perform handle mid = rest at h
        obtain ⟨rest, later, result⟩ := rest
        cases h
        obtain ⟨mid', first, a, later, hp, hf, rfl⟩ := (ih x).mp hrest
        exact ⟨mid', ⟨op, x⟩ :: first, a, later, by rw [hp], hf, rfl⟩
      · rintro ⟨mid', first, a, later, hp, hf, rfl⟩
        generalize hnext : (next x).perform handle mid = rest at hp
        obtain ⟨_, answered, result⟩ := rest
        cases hp
        rw [(ih x).mpr ⟨_, answered, a, later, hnext, hf, rfl⟩]
        rfl

theorem perform_call_ok_iff {handle : Handler s σ} {op : s.Op} {f : s.Answer op → α}
    {state end' : σ} {calls : List (Call s)} {a : α} :
    (Program.call op fun x => .done (f x)).perform handle state = ⟨end', calls, .ok a⟩ ↔
      ∃ x, handle op state = .ok x end' ∧ calls = [⟨op, x⟩] ∧ a = f x := by
  cases hop : handle op state with
  | error e mid =>
    rw [perform_call_error hop]
    constructor
    · intro h
      cases h
    · rintro ⟨x, h, -⟩
      cases h
  | ok x mid =>
    rw [perform_call_ok hop]
    constructor
    · intro h
      cases h
      exact ⟨x, rfl, rfl, rfl⟩
    · rintro ⟨x', h, rfl, rfl⟩
      cases h
      rfl

/-- An outcome whose state is seen through a map. -/
def Outcome.mapState (f : σ → τ) : Outcome σ α → Outcome τ α
  | .ok x state => .ok x (f state)
  | .error e state => .error e (f state)

/-- If a map of states goes along with every operation, it goes along with every callback. -/
theorem perform_mapState {handle : Handler s σ} {handle' : Handler s τ} {f : σ → τ}
    (h : ∀ op state, handle' op (f state) = Outcome.mapState f (handle op state))
    (p : Program s α) (state : σ) :
    p.perform handle' (f state) = ⟨f (p.perform handle state).state,
      (p.perform handle state).calls, (p.perform handle state).result⟩ := by
  induction p generalizing state with
  | done a => rfl
  | fail e => rfl
  | call op next ih =>
    have hmap := h op state
    cases hop : handle op state with
    | error e state' =>
      rw [hop] at hmap
      rw [perform_call_error hmap, perform_call_error hop]
    | ok x state' =>
      rw [hop] at hmap
      rw [perform_call_ok hmap, perform_call_ok hop, ih x state']

/-- The state an outcome leaves. -/
def Outcome.state : Outcome σ α → σ
  | .ok _ state => state
  | .error _ state => state

theorem perform_always_from {handle : Handler s σ} {I : List (Call s) → σ → Prop}
    (answered : ∀ calls state op x state', I calls state → handle op state = .ok x state' →
      I (calls ++ [⟨op, x⟩]) state')
    (refused : ∀ calls state op f state', I calls state → handle op state = .error f state' →
      I calls state')
    (p : Program s α) {past : List (Call s)} {state : σ} (h : I past state) :
    I (past ++ (p.perform handle state).calls) (p.perform handle state).state := by
  induction p generalizing past state with
  | done b => simpa [Program.perform] using h
  | fail f => simpa [Program.perform] using h
  | call op next ih =>
    cases hop : handle op state with
    | error f state' =>
      rw [perform_call_error hop]
      simpa using refused past state op f state' h hop
    | ok x state' =>
      rw [perform_call_ok hop]
      simpa using ih x (answered past state op x state' h hop)

/-- What every operation keeps, whether it is answered or faults, holds at the end of every
callback. -/
theorem perform_always {handle : Handler s σ} {I : List (Call s) → σ → Prop}
    (answered : ∀ calls state op x state', I calls state → handle op state = .ok x state' →
      I (calls ++ [⟨op, x⟩]) state')
    (refused : ∀ calls state op f state', I calls state → handle op state = .error f state' →
      I calls state')
    (p : Program s α) {state : σ} (h : I [] state) :
    I (p.perform handle state).calls (p.perform handle state).state := by
  simpa using perform_always_from answered refused p h

theorem perform_invariant_from {handle : Handler s σ} {I : List (Call s) → σ → Prop}
    (step : ∀ calls state op x state', I calls state → handle op state = .ok x state' →
      I (calls ++ [⟨op, x⟩]) state')
    (p : Program s α) {past : List (Call s)} {state : σ} {a : α} (h : I past state)
    (ha : (p.perform handle state).result = .ok a) :
    I (past ++ (p.perform handle state).calls) (p.perform handle state).state := by
  induction p generalizing past state with
  | done b => simpa [Program.perform] using h
  | fail f => simp [Program.perform] at ha
  | call op next ih =>
    cases hop : handle op state with
    | error f state' => simp [perform_call_error hop] at ha
    | ok x state' =>
      rw [perform_call_ok hop] at ha ⊢
      have hh := ih x (step past state op x state' h hop) ha
      simpa using hh

/-- What every answered operation keeps, with the calls made so far in view, holds at the end of
a callback that did not fault. -/
theorem perform_invariant {handle : Handler s σ} {I : List (Call s) → σ → Prop}
    (step : ∀ calls state op x state', I calls state → handle op state = .ok x state' →
      I (calls ++ [⟨op, x⟩]) state')
    (p : Program s α) {state : σ} {a : α} (h : I [] state)
    (ha : (p.perform handle state).result = .ok a) :
    I (p.perform handle state).calls (p.perform handle state).state := by
  simpa using perform_invariant_from step p h ha

end BulkSync
