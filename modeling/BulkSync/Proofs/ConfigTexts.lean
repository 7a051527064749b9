import BulkSync.ConfigText
import BulkSync.Proofs.JsonTexts
import BulkSync.Proofs.Numerals

namespace BulkSync

namespace GivenSettings

def settingNames : List String :=
  ["concurrency", "max_supersteps", "partition_threshold", "partitioning"]

/-- The values that the members of one name give, in their order. -/
def valuesOf (name : String) (members : List (List Char × Json)) : List Json :=
  members.filterMap fun m => if Json.decodeString m.1 = some name.toList then some m.2 else .none

/-- Takes in the values of one setting, each of which has to be the first. -/
def gather {α : Type} (read : Json → Option α) (old : Option α) (values : List Json) :
    Option (Option α) :=
  values.foldlM (fun old v => once old (read v)) old

section Gather

variable {α : Type} {read : Json → Option α}

theorem gather_nil (old : Option α) : gather read old [] = some old :=
  rfl

theorem gather_append_iff {old new : Option α} {vs ws : List Json} :
    gather read old (vs ++ ws) = some new ↔
      ∃ mid, gather read old vs = some mid ∧ gather read mid ws = some new := by
  unfold gather
  rw [List.foldlM_append, Option.bind_eq_bind, Option.bind_eq_some_iff]

theorem gather_singleton (old : Option α) (v : Json) : gather read old [v] = once old (read v) := by
  cases h : once old (read v) <;> simp [gather, h]

theorem once_some (old : α) (new : Option α) : once (some old) new = .none := by
  cases new <;> rfl

/-- A setting that has its value takes no other. -/
theorem gather_some_iff {old : α} {new : Option α} {vs : List Json} :
    gather read (some old) vs = some new ↔ vs = [] ∧ new = some old := by
  cases vs with
  | nil => simp [gather_nil, eq_comm]
  | cons v vs => simp [gather, once_some]

end Gather

theorem valuesOf_append (name : String) (members others : List (List Char × Json)) :
    valuesOf name (members ++ others) = valuesOf name members ++ valuesOf name others :=
  List.filterMap_append

theorem valuesOf_perm {members others : List (List Char × Json)} (h : members.Perm others)
    (name : String) :
    (valuesOf name members).Perm (valuesOf name others) :=
  h.filterMap _

theorem gather_member {α : Type} {read : Json → Option α} {old : Option α} {name : String}
    {found : List Char} {m : List Char × Json} (h : Json.decodeString m.1 = some found) :
    gather read old (valuesOf name [m]) =
      if found = name.toList then once old (read m.2) else some old := by
  by_cases hname : found = name.toList
  · simp [valuesOf, h, hname, gather_singleton]
  · simp [valuesOf, h, hname, gather_nil]

/-- One member gives its value to the setting that it names and leaves the others alone. -/
theorem member_eq {given : GivenSettings} {m : List Char × Json} {found : List Char}
    (h : Json.decodeString m.1 = some found) :
    given.member m = do
      let concurrency ← gather countOfJson? given.concurrency (valuesOf "concurrency" [m])
      let maxSupersteps ← gather countOfJson? given.maxSupersteps (valuesOf "max_supersteps" [m])
      let partitionThreshold ←
        gather countOfJson? given.partitionThreshold (valuesOf "partition_threshold" [m])
      let partitioning ←
        gather Partitioning.ofJson? given.partitioning (valuesOf "partitioning" [m])
      return ⟨concurrency, maxSupersteps, partitionThreshold, partitioning⟩ := by
  unfold member
  rw [h, gather_member h, gather_member h, gather_member h, gather_member h]
  rw [Option.bind_eq_bind, Option.bind_some]
  -- no two names are equal, so at most one of the four settings sees the value
  by_cases hc : found = "concurrency".toList
  · rw [if_pos hc, if_pos hc, if_neg (by rw [hc]; decide), if_neg (by rw [hc]; decide),
      if_neg (by rw [hc]; decide)]
    rfl
  · rw [if_neg hc, if_neg hc]
    by_cases hs : found = "max_supersteps".toList
    · rw [if_pos hs, if_pos hs, if_neg (by rw [hs]; decide), if_neg (by rw [hs]; decide)]
      rfl
    · rw [if_neg hs, if_neg hs]
      by_cases ht : found = "partition_threshold".toList
      · rw [if_pos ht, if_pos ht, if_neg (by rw [ht]; decide)]
        rfl
      · rw [if_neg ht, if_neg ht]
        by_cases hp : found = "partitioning".toList
        · rw [if_pos hp, if_pos hp]
          rfl
        · rw [if_neg hp, if_neg hp]
          rfl

/-- The settings that the values of all members give. -/
structure Gathered (given : GivenSettings) (members : List (List Char × Json))
    (new : GivenSettings) : Prop where
  keys : ∀ m ∈ members, ∃ name, Json.decodeString m.1 = some name
  concurrency : gather countOfJson? given.concurrency (valuesOf "concurrency" members) =
    some new.concurrency
  maxSupersteps : gather countOfJson? given.maxSupersteps (valuesOf "max_supersteps" members) =
    some new.maxSupersteps
  partitionThreshold :
    gather countOfJson? given.partitionThreshold (valuesOf "partition_threshold" members) =
      some new.partitionThreshold
  partitioning : gather Partitioning.ofJson? given.partitioning (valuesOf "partitioning" members) =
    some new.partitioning

section Gathered

variable {given mid new : GivenSettings} {m : List Char × Json}
  {members others : List (List Char × Json)}

theorem gathered_nil : Gathered given [] new ↔ new = given := by
  constructor
  · intro h
    obtain ⟨_, hc, hs, ht, hp⟩ := h
    cases given
    cases new
    cases hc
    cases hs
    cases ht
    cases hp
    rfl
  · rintro rfl
    exact ⟨by simp, rfl, rfl, rfl, rfl⟩

theorem member_eq_some_iff : given.member m = some new ↔ Gathered given [m] new := by
  constructor
  · intro h
    cases hfound : Json.decodeString m.1 with
    | none =>
      unfold member at h
      rw [hfound] at h
      cases h
    | some found =>
      rw [member_eq hfound] at h
      obtain ⟨c, hc, h⟩ := Option.bind_eq_some_iff.mp h
      obtain ⟨s, hs, h⟩ := Option.bind_eq_some_iff.mp h
      obtain ⟨t, ht, h⟩ := Option.bind_eq_some_iff.mp h
      obtain ⟨p, hp, h⟩ := Option.bind_eq_some_iff.mp h
      cases h
      exact ⟨by simp [hfound], hc, hs, ht, hp⟩
  · rintro ⟨hkeys, hc, hs, ht, hp⟩
    obtain ⟨found, hfound⟩ := hkeys m (by simp)
    rw [member_eq hfound, hc, hs, ht, hp]
    rfl

theorem Gathered.append (h : Gathered given members mid) (hothers : Gathered mid others new) :
    Gathered given (members ++ others) new where
  keys m hm := (List.mem_append.mp hm).elim (h.keys m) (hothers.keys m)
  concurrency := by
    rw [valuesOf_append]
    exact gather_append_iff.mpr ⟨_, h.concurrency, hothers.concurrency⟩
  maxSupersteps := by
    rw [valuesOf_append]
    exact gather_append_iff.mpr ⟨_, h.maxSupersteps, hothers.maxSupersteps⟩
  partitionThreshold := by
    rw [valuesOf_append]
    exact gather_append_iff.mpr ⟨_, h.partitionThreshold, hothers.partitionThreshold⟩
  partitioning := by
    rw [valuesOf_append]
    exact gather_append_iff.mpr ⟨_, h.partitioning, hothers.partitioning⟩

theorem Gathered.split (h : Gathered given (members ++ others) new) :
    ∃ mid, Gathered given members mid ∧ Gathered mid others new := by
  obtain ⟨hkeys, hc, hs, ht, hp⟩ := h
  rw [valuesOf_append, gather_append_iff] at hc hs ht hp
  obtain ⟨c, hc, hc'⟩ := hc
  obtain ⟨s, hs, hs'⟩ := hs
  obtain ⟨t, ht, ht'⟩ := ht
  obtain ⟨p, hp, hp'⟩ := hp
  exact ⟨⟨c, s, t, p⟩, ⟨fun m hm => hkeys m (List.mem_append_left _ hm), hc, hs, ht, hp⟩,
    ⟨fun m hm => hkeys m (List.mem_append_right _ hm), hc', hs', ht', hp'⟩⟩

/-- All members one after the other give what their values give setting by setting. -/
theorem foldlM_member_iff :
    members.foldlM member given = some new ↔ Gathered given members new := by
  induction members generalizing given with
  | nil =>
    rw [gathered_nil, List.foldlM_nil]
    exact ⟨fun h => (Option.some.inj h).symm, fun h => congrArg some h.symm⟩
  | cons m members ih =>
    rw [List.foldlM_cons, Option.bind_eq_bind, Option.bind_eq_some_iff]
    -- the members after the first one start from the settings that it leaves
    constructor
    · rintro ⟨mid, hm, hmembers⟩
      exact (member_eq_some_iff.mp hm).append (ih.mp hmembers)
    · intro h
      obtain ⟨mid, hm, hmembers⟩ := Gathered.split (List.singleton_append ▸ h)
      exact ⟨mid, member_eq_some_iff.mpr hm, ih.mpr hmembers⟩

end Gathered

/-- What a setting is after the values given for it: the standard one if there are none, the one
that is given, and nothing at all after two. -/
def Settles {α : Type} (read : Json → Option α) (standard : α) : List Json → α → Prop
  | [], x => x = standard
  | [v], x => read v = some x
  | _ :: _ :: _, _ => False

section Settles

variable {α : Type} {read : Json → Option α} {standard x : α} {vs ws : List Json}

theorem settles_iff : Settles read standard vs x ↔
    ∃ given, gather read .none vs = some given ∧ given.getD standard = x := by
  cases vs with
  | nil =>
    constructor
    · rintro rfl
      exact ⟨.none, rfl, rfl⟩
    · rintro ⟨given, hgiven, rfl⟩
      cases hgiven
      rfl
  | cons v vs =>
    cases hv : read v with
    | none => cases vs <;> simp [Settles, gather, once, hv]
    | some y =>
      have hgather : gather read .none (v :: vs) = gather read (some y) vs := by
        simp [gather, once, hv]
      rw [hgather]
      simp only [gather_some_iff]
      cases vs with
      | nil => simp [Settles, hv]
      | cons w vs => simp [Settles]

theorem Settles.perm (h : Settles read standard vs x) (hperm : vs.Perm ws) :
    Settles read standard ws x := by
  -- two values settle nothing, and fewer have one order only
  match vs, h with
  | [], h =>
    rw [hperm.nil_eq] at h
    exact h
  | [v], h =>
    rw [List.singleton_perm.mp hperm] at h
    exact h

end Settles

/-- Every key is a text and every setting is settled by its values. -/
structure SettledBy (standard : Config) (members : List (List Char × Json))
    (config : Config) : Prop where
  keys : ∀ m ∈ members, ∃ name, Json.decodeString m.1 = some name
  concurrency : Settles countOfJson? standard.concurrency (valuesOf "concurrency" members)
    config.concurrency
  maxSupersteps : Settles countOfJson? standard.maxSupersteps (valuesOf "max_supersteps" members)
    config.maxSupersteps
  partitionThreshold : Settles countOfJson? standard.partitionThreshold
    (valuesOf "partition_threshold" members) config.partitionThreshold
  partitioning : Settles Partitioning.ofJson? standard.partitioning
    (valuesOf "partitioning" members) config.partitioning

/-- A key with the name of no setting. -/
def OtherKey (key : List Char) : Prop :=
  ∃ name, Json.decodeString key = some name ∧
    ∀ setting ∈ settingNames, name ≠ setting.toList

section SettledBy

variable {standard config : Config} {members others extra : List (List Char × Json)}

theorem fill_iff : (∃ given, Gathered none members given ∧ given.fill standard = config) ↔
    SettledBy standard members config := by
  constructor
  · rintro ⟨given, ⟨hkeys, hc, hs, ht, hp⟩, rfl⟩
    exact ⟨hkeys, settles_iff.mpr ⟨_, hc, rfl⟩, settles_iff.mpr ⟨_, hs, rfl⟩,
      settles_iff.mpr ⟨_, ht, rfl⟩, settles_iff.mpr ⟨_, hp, rfl⟩⟩
  · rintro ⟨hkeys, hc, hs, ht, hp⟩
    obtain ⟨c, hc, hc'⟩ := settles_iff.mp hc
    obtain ⟨s, hs, hs'⟩ := settles_iff.mp hs
    obtain ⟨t, ht, ht'⟩ := settles_iff.mp ht
    obtain ⟨p, hp, hp'⟩ := settles_iff.mp hp
    refine ⟨⟨c, s, t, p⟩, ⟨hkeys, hc, hs, ht, hp⟩, ?_⟩
    rw [fill, hc', hs', ht', hp']

theorem SettledBy.perm (h : SettledBy standard members config) (hperm : members.Perm others) :
    SettledBy standard others config where
  keys m hm := h.keys m (hperm.mem_iff.mpr hm)
  concurrency := h.concurrency.perm (valuesOf_perm hperm _)
  maxSupersteps := h.maxSupersteps.perm (valuesOf_perm hperm _)
  partitionThreshold := h.partitionThreshold.perm (valuesOf_perm hperm _)
  partitioning := h.partitioning.perm (valuesOf_perm hperm _)

theorem valuesOf_extra {name : String} (hname : name ∈ settingNames)
    (hextra : ∀ m ∈ extra, OtherKey m.1) (members : List (List Char × Json)) :
    valuesOf name (extra ++ members) = valuesOf name members := by
  have hnone : valuesOf name extra = [] := by
    refine List.filterMap_eq_nil_iff.mpr fun m hm => ?_
    obtain ⟨found, hfound, hother⟩ := hextra m hm
    exact if_neg (by rw [hfound]; exact fun heq => hother name hname (Option.some.inj heq))
  rw [valuesOf_append, hnone, List.nil_append]

theorem settledBy_extra_iff (hextra : ∀ m ∈ extra, OtherKey m.1) :
    SettledBy standard (extra ++ members) config ↔ SettledBy standard members config := by
  have hkeys : (∀ m ∈ extra ++ members, ∃ name, Json.decodeString m.1 = some name) ↔
      ∀ m ∈ members, ∃ name, Json.decodeString m.1 = some name := by
    constructor
    · exact fun h m hm => h m (List.mem_append_right _ hm)
    · intro h m hm
      rcases List.mem_append.mp hm with hm | hm
      · obtain ⟨name, hname, _⟩ := hextra m hm
        exact ⟨name, hname⟩
      · exact h m hm
  have hvalues : ∀ name ∈ settingNames,
      valuesOf name (extra ++ members) = valuesOf name members :=
    fun _ hname => valuesOf_extra hname hextra members
  constructor
  · rintro ⟨hk, hc, hs, ht, hp⟩
    rw [hvalues _ (by simp [settingNames])] at hc hs ht hp
    exact ⟨hkeys.mp hk, hc, hs, ht, hp⟩
  · rintro ⟨hk, hc, hs, ht, hp⟩
    rw [← hvalues _ (by simp [settingNames])] at hc hs ht hp
    exact ⟨hkeys.mpr hk, hc, hs, ht, hp⟩

end SettledBy

end GivenSettings

namespace Config

open GivenSettings

/-- An object gives the configuration that its members settle, in whatever order they stand. -/
theorem ofText?_object_iff {standard config : Config} {text : List Char}
    {members : List (List Char × Json)} (h : Json.Spaced text (.object members)) :
    ofText? standard text = some config ↔ SettledBy standard members config := by
  unfold ofText?
  rw [Json.parse_spaced h, ← fill_iff]
  change (members.foldlM member none).bind _ = some config ↔ _
  rw [Option.bind_eq_some_iff]
  simp only [foldlM_member_iff, pure, Option.some.injEq]

theorem ofText?_reordered {standard : Config} {text other : List Char}
    {members others extra : List (List Char × Json)}
    (h : Json.Spaced text (.object members)) (hother : Json.Spaced other (.object others))
    (hperm : others.Perm (extra ++ members)) (hextra : ∀ m ∈ extra, OtherKey m.1) :
    ofText? standard other = ofText? standard text := by
  apply Option.ext
  intro config
  calc ofText? standard other = some config
      ↔ SettledBy standard others config := ofText?_object_iff hother
    _ ↔ SettledBy standard (extra ++ members) config :=
        ⟨fun hs => hs.perm hperm, fun hs => hs.perm hperm.symm⟩
    _ ↔ SettledBy standard members config := settledBy_extra_iff hextra
    _ ↔ ofText? standard text = some config := (ofText?_object_iff h).symm

end Config

section Writing

theorem toDigits_head {n : Nat} (h : 0 < n) : (Nat.toDigits 10 n).head? ≠ some '0' := by
  induction n using Nat.strongRecOn with
  | ind n ih =>
    by_cases hn : n < 10
    · have hdigit : ∀ d < 10, 0 < d → [Nat.digitChar d].head? ≠ some '0' := by decide
      rw [Nat.toDigits_of_lt_base hn]
      exact hdigit n hn h
    · rw [Nat.toDigits_of_base_le (by decide) (Nat.le_of_not_lt hn),
        List.head?_append_of_ne_nil _ Nat.toDigits_ne_nil]
      exact ih (n / 10) (by omega) (by omega)

theorem wholeText_toDigits (n : Nat) : Json.WholeText (Nat.toDigits 10 n) := by
  have hdigits : Json.Digits (Nat.toDigits 10 n) :=
    ⟨Nat.toDigits_ne_nil, fun c hc => isDigit_of_mem_decimal hc⟩
  by_cases hn : n = 0
  · rw [hn]
    exact .zero
  · exact .digits hdigits (toDigits_head (Nat.pos_of_ne_zero hn))

theorem written_count (n : Nat) :
    Json.Written (Nat.toDigits 10 n) (.number (Nat.toDigits 10 n)) := by
  have hnumber : Json.NumberText ([] ++ Nat.toDigits 10 n ++ [] ++ []) :=
    .intro (by simp) (wholeText_toDigits n) .absent .absent
  rw [List.nil_append, List.append_nil, List.append_nil] at hnumber
  exact .number hnumber

namespace Config

open GivenSettings

/-- The members of the object that a configuration is written as. -/
def members (config : Config) : List (List Char × Json) :=
  [("concurrency".toList, .number (Nat.toDigits 10 config.concurrency)),
    ("max_supersteps".toList, .number (Nat.toDigits 10 config.maxSupersteps)),
    ("partition_threshold".toList, .number (Nat.toDigits 10 config.partitionThreshold)),
    ("partitioning".toList, .string config.partitioning.name.toList)]

theorem toText_spaced (config : Config) : Json.Spaced config.toText (.object config.members) := by
  have hkey : ∀ name ∈ settingNames, Json.StringText name.toList := by
    have hplain : ∀ name ∈ settingNames, name.toList.all Json.isPlain := by decide
    exact fun name hname => .of_plain (hplain name hname)
  have hname : Json.StringText config.partitioning.name.toList := by
    apply Json.StringText.of_plain
    cases config.partitioning <;> decide
  have hmembers := Json.Members.next
    (Json.Member.compact (hkey "concurrency" (by decide)) (written_count config.concurrency))
    (.next (.compact (hkey "max_supersteps" (by decide)) (written_count config.maxSupersteps))
      (.next (.compact (hkey "partition_threshold" (by decide))
          (written_count config.partitionThreshold))
        (.last (.compact (hkey "partitioning" (by decide)) (.string hname)))))
  have hconcurrency : "\x7b\"concurrency\":".toList =
      '\x7b' :: '"' :: ("concurrency".toList ++ ['"', ':']) := rfl
  have hsupersteps : ",\"max_supersteps\":".toList =
      ',' :: '"' :: ("max_supersteps".toList ++ ['"', ':']) := rfl
  have hthreshold : ",\"partition_threshold\":".toList =
      ',' :: '"' :: ("partition_threshold".toList ++ ['"', ':']) := rfl
  have hpartitioning : ",\"partitioning\":\"".toList =
      ',' :: '"' :: ("partitioning".toList ++ ['"', ':', '"']) := rfl
  have hclose : "\"\x7d".toList = ['"', '\x7d'] := rfl
  have hobject := (Json.Written.object hmembers).spaced
  unfold toText
  rw [hconcurrency, hsupersteps, hthreshold, hpartitioning, hclose]
  simp only [List.append_assoc, List.cons_append, List.nil_append] at hobject ⊢
  exact hobject

theorem settledBy_members {config : Config} (hc : config.concurrency < countLimit)
    (hs : config.maxSupersteps < countLimit) (ht : config.partitionThreshold < countLimit)
    (standard : Config) : SettledBy standard config.members config where
  keys := by
    intro m hm
    simp only [members, List.mem_cons, List.not_mem_nil, or_false] at hm
    rcases hm with rfl | rfl | rfl | rfl <;> exact ⟨_, rfl⟩
  concurrency := by
    change countOfJson? (.number (Nat.toDigits 10 config.concurrency)) = some config.concurrency
    exact readDigits?_toDigits hc
  maxSupersteps := by
    change countOfJson? (.number (Nat.toDigits 10 config.maxSupersteps)) = some config.maxSupersteps
    exact readDigits?_toDigits hs
  partitionThreshold := by
    change countOfJson? (.number (Nat.toDigits 10 config.partitionThreshold)) =
      some config.partitionThreshold
    exact readDigits?_toDigits ht
  partitioning := by
    change Partitioning.ofJson? (.string config.partitioning.name.toList) =
      some config.partitioning
    cases config.partitioning <;> rfl

end Config

end Writing

section Reading

open GivenSettings

/-- A configuration is read back from its own text. Of any object text, every setting becomes what
its one member gives, or keeps its standard value without one; so neither the order of the members
counts nor any member with another key, whatever value it has. -/
theorem config_texts_settle (standard : Config) :
    (∀ config : Config, config.concurrency < countLimit → config.maxSupersteps < countLimit →
      config.partitionThreshold < countLimit →
      Config.ofText? standard config.toText = some config) ∧
    ∀ {text : List Char} {members : List (List Char × Json)}, Json.Spaced text (.object members) →
      (∀ config, Config.ofText? standard text = some config ↔
        SettledBy standard members config) ∧
      ∀ {other : List Char} {others extra : List (List Char × Json)},
        Json.Spaced other (.object others) → others.Perm (extra ++ members) →
        (∀ m ∈ extra, OtherKey m.1) →
        Config.ofText? standard other = Config.ofText? standard text := by
  refine ⟨fun config hc hs ht => ?_, fun htext => ⟨fun config => ?_, ?_⟩⟩
  · exact (Config.ofText?_object_iff config.toText_spaced).mpr
      (Config.settledBy_members hc hs ht standard)
  · exact Config.ofText?_object_iff htext
  · intro other others extra hother hperm hextra
    exact Config.ofText?_reordered htext hother hperm hextra

/-- Two settings are given, once with an unknown member between them. -/
theorem config_texts_settle_two :
    Config.ofText? (Config.standard 4) (Config.toText ⟨1, 2, 3, .degree⟩) =
      some ⟨1, 2, 3, .degree⟩ ∧
    Config.ofText? (Config.standard 4)
      "\x7b\"max_supersteps\":3,\"partitioning\":\"Auto\"\x7d".toList =
        some ⟨4, 3, 1024, .auto⟩ ∧
    Config.ofText? (Config.standard 4)
      "\x7b\"partitioning\":\"Auto\",\"note\":[null],\"max_supersteps\":3\x7d".toList =
        some ⟨4, 3, 1024, .auto⟩ := by
  obtain ⟨hround, hread⟩ := config_texts_settle (Config.standard 4)
  have hkey : ∀ name ∈ ["max_supersteps", "partitioning", "note", "Auto"],
      Json.StringText name.toList := by
    have hplain : ∀ name ∈ ["max_supersteps", "partitioning", "note", "Auto"],
        name.toList.all Json.isPlain := by decide
    exact fun name hname => .of_plain (hplain name hname)
  have hsupersteps := Json.Member.compact (hkey "max_supersteps" (by simp)) (written_count 3)
  have hpartitioning := Json.Member.compact (hkey "partitioning" (by simp))
    (.string (hkey "Auto" (by simp)))
  have hnote := Json.Member.compact (hkey "note" (by simp))
    (.array (.last Json.Written.null.spaced))
  have htext : Json.Spaced "\x7b\"max_supersteps\":3,\"partitioning\":\"Auto\"\x7d".toList _ :=
    (Json.Written.object (.next hsupersteps (.last hpartitioning))).spaced
  have hother : Json.Spaced
      "\x7b\"partitioning\":\"Auto\",\"note\":[null],\"max_supersteps\":3\x7d".toList _ :=
    (Json.Written.object (.next hpartitioning (.next hnote (.last hsupersteps)))).spaced
  obtain ⟨hsettled, hreordered⟩ := hread htext
  have hextra : ∀ m ∈ [("note".toList, Json.array [.null])], OtherKey m.1 :=
    List.forall_mem_singleton.mpr ⟨"note".toList, rfl, by decide⟩
  have hfirst := (hsettled ⟨4, 3, 1024, .auto⟩).mpr
    ⟨List.forall_mem_cons.mpr ⟨⟨_, rfl⟩, List.forall_mem_singleton.mpr ⟨_, rfl⟩⟩,
      rfl, rfl, rfl, rfl⟩
  have hsecond := hreordered hother (List.perm_append_singleton _ [_, _]).symm hextra
  exact ⟨hround _ (by decide) (by decide) (by decide), hfirst, hsecond.trans hfirst⟩

end Reading

end BulkSync
