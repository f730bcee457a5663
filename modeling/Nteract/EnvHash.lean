import Nteract.Lib.Text

namespace Nteract.EnvHash

open Nteract.Lib List Option

structure UvDependencies where
  dependencies : List Text
  requiresPython : Option Text
  prerelease : Option Text

structure CondaDependencies where
  dependencies : List Text
  channels : List Text
  python : Option Text
  envId : Option Text

def sorted (entries : List Text) : List Text := entries.mergeSort fun a b => decide (a ≤ b)

def lines (entries : List Text) : Text := entries.flatMap (· ++ ['\n'])

def labelled (label : String) : Option Text → Text
  | some value => label.toList ++ value
  | none => []

def flagged (line : String) (flag : Bool) : Text := if flag then line.toList else []

def bytes (text : Text) : ByteArray := (String.ofList text).toByteArray

-- The bytes that `compute_unified_env_hash` feeds to the hasher.
def UvDependencies.hashInput (deps : UvDependencies) (envId : Text) : ByteArray :=
  bytes (lines (sorted deps.dependencies) ++ labelled "requires-python:" deps.requiresPython ++
    labelled "\nprerelease:" deps.prerelease ++ "\nenv_id:".toList ++ envId)

def resolveChannelAlias (channel : Text) : Text :=
  if channel = "main".toList then "https://repo.anaconda.com/pkgs/main".toList
  else if channel = "main-x".toList then "https://repo.anaconda.cloud/repo/main-x".toList
  else channel

def aliased (channel : Text) : Bool := resolveChannelAlias channel != channel

def CondaDependencies.usesAliases (deps : CondaDependencies) : Bool :=
  deps.channels.any aliased || deps.dependencies.any fun dep =>
    match Text.splitOnce "::".toList dep with
    | some (channel, _) => aliased channel.trim
    | none => false

def condaTail (abi aliases : Bool) (envId : Option Text) : Text :=
  flagged "python-abi:gil\n" abi ++ flagged "anaconda-channel-aliases:v1\n" aliases ++
    labelled "env_id:" envId

-- The bytes that `compute_env_hash` hashes. Whether the solver adds an ABI constraint is left open.
def CondaDependencies.hashInput (constrainsAbi : CondaDependencies → Bool)
    (deps : CondaDependencies) : ByteArray :=
  bytes (lines (sorted deps.dependencies) ++ lines (deps.channels.map ("channel:".toList ++ ·)) ++
    labelled "python:" deps.python ++
    condaTail (constrainsAbi deps) deps.usesAliases deps.envId)

structure UvDependencies.OneLine (deps : UvDependencies) : Prop where
  dependencies : ∀ dep ∈ deps.dependencies, '\n' ∉ dep
  requiresPython : ∀ python ∈ deps.requiresPython, '\n' ∉ python
  prerelease : ∀ prerelease ∈ deps.prerelease, '\n' ∉ prerelease

def CONDA_LABELS : List Text :=
  ["channel:", "python:", "python-abi:", "anaconda-channel-aliases:", "env_id:"].map String.toList

-- No string reaches over its place: the python constraint must not run into a label, and no
-- dependency may look like another line.
structure CondaDependencies.Unlabelled (deps : CondaDependencies) : Prop where
  dependencies : ∀ dep ∈ deps.dependencies, '\n' ∉ dep ∧ ∀ label ∈ CONDA_LABELS, ¬ label <+: dep
  channels : ∀ channel ∈ deps.channels, '\n' ∉ channel
  python : ∀ python ∈ deps.python, ':' ∉ python

theorem bytes_inj (he : bytes a = bytes b) : a = b :=
  String.ofList_injective (String.toByteArray_inj.mp he)

theorem perm_of_sorted (he : sorted a = sorted b) : a.Perm b :=
  (mergeSort_perm a _).symm.trans ((he ▸ mergeSort_perm b _ : (sorted a).Perm b))

theorem mem_sorted : x ∈ sorted a ↔ x ∈ a := (mergeSort_perm a _).mem_iff

theorem takeWhile_cut {c : Char} (hx : c ∉ x) : (x ++ c :: s).takeWhile (· ≠ c) = x := by
  rw [takeWhile_append_of_pos fun d hd => by simpa using ne_of_mem_of_not_mem hd hx]
  simp

theorem cut_inj {c : Char} (hx : c ∉ x) (hy : c ∉ y) (he : x ++ c :: s = y ++ c :: t) :
    x = y ∧ s = t := by
  have hw := congrArg (List.takeWhile (· ≠ c)) he
  rw [takeWhile_cut hx, takeWhile_cut hy] at hw
  subst hw
  exact ⟨rfl, by simpa using he⟩

@[simp]
theorem lines_nil : lines [] = [] := rfl

@[simp]
theorem lines_cons : lines (x :: xs) = x ++ '\n' :: lines xs := by simp [lines]

@[simp]
theorem lines_append : lines (xs ++ ys) = lines xs ++ lines ys := flatMap_append

-- Lines can be read off the front until what stands there is none.
theorem lines_inj (hx : ∀ x ∈ xs, '\n' ∉ x ∧ ¬ x ++ ['\n'] <+: t)
    (hy : ∀ y ∈ ys, '\n' ∉ y ∧ ¬ y ++ ['\n'] <+: s) (he : lines xs ++ s = lines ys ++ t) :
    xs = ys ∧ s = t := by
  induction xs generalizing ys with
  | nil =>
    cases ys with
    | nil => exact ⟨rfl, he⟩
    | cons y ys => exact absurd ⟨lines ys ++ t, by simpa using he.symm⟩ (hy y (by simp)).2
  | cons x xs ih =>
    cases ys with
    | nil => exact absurd ⟨lines xs ++ s, by simpa using he⟩ (hx x (by simp)).2
    | cons y ys =>
      simp only [forall_mem_cons] at hx hy
      obtain ⟨rfl, hr⟩ := cut_inj hx.1.1 hy.1.1 (by simpa using he)
      obtain ⟨rfl, hs⟩ := ih hx.2 hy.2 hr
      exact ⟨rfl, hs⟩

theorem labelled_inj (he : labelled label a = labelled label b) (hl : label.toList ≠ []) :
    a = b := by
  cases a <;> cases b <;> simp_all [labelled]

def UvDependencies.front (deps : UvDependencies) : List Text :=
  sorted deps.dependencies ++ [labelled "requires-python:" deps.requiresPython] ++
    (deps.prerelease.map ("prerelease:".toList ++ ·)).toList

theorem UvDependencies.hashInput_eq (deps : UvDependencies) (envId : Text) :
    deps.hashInput envId = bytes (lines deps.front ++ ("env_id:".toList ++ envId)) := by
  obtain ⟨_, _, _ | _⟩ := deps <;> simp [hashInput, front, labelled]

theorem UvDependencies.OneLine.front {deps : UvDependencies} (ho : deps.OneLine) :
    ∀ line ∈ deps.front, '\n' ∉ line := by
  intro line hl
  simp only [UvDependencies.front, append_assoc, mem_append, mem_singleton,
    mem_toList, map_eq_some_iff, mem_sorted] at hl
  rcases hl with hl | rfl | ⟨_, hp, rfl⟩
  · exact ho.dependencies line hl
  · cases hr : deps.requiresPython with
    | none => simp [labelled]
    | some python => simpa [labelled] using ho.requiresPython python hr
  · simpa using ho.prerelease _ hp

theorem front_ne (da db : List Text) (pa pb : Option Text) (prerelease : Text) :
    UvDependencies.front ⟨da, pa, none⟩ ≠ UvDependencies.front ⟨db, pb, some prerelease⟩ := by
  intro he
  simp only [UvDependencies.front, map_none, map_some, toList_none, toList_some, append_nil] at he
  obtain ⟨_, hp⟩ := append_inj' he rfl
  cases pa <;> simp [labelled] at hp

theorem front_inj {a b : UvDependencies} (he : a.front = b.front) :
    sorted a.dependencies = sorted b.dependencies ∧ a.requiresPython = b.requiresPython ∧
      a.prerelease = b.prerelease := by
  obtain ⟨_, _, ra⟩ := a
  obtain ⟨_, _, rb⟩ := b
  have hr : ra.isSome = rb.isSome := by
    cases ra <;> cases rb
    · rfl
    · exact (front_ne _ _ _ _ _ he).elim
    · exact (front_ne _ _ _ _ _ he.symm).elim
    · rfl
  obtain ⟨hf, _⟩ := append_inj' he (by simp [length_toList, hr])
  obtain ⟨hd, hp⟩ := append_inj' hf rfl
  refine ⟨hd, labelled_inj (singleton_inj.mp hp) (by simp), ?_⟩
  cases ra <;> cases rb <;> simp_all

theorem uv_separate {a b : UvDependencies} (ha : a.OneLine) (hb : b.OneLine) (hi : '\n' ∉ ia)
    (hj : '\n' ∉ ib) (he : a.hashInput ia = b.hashInput ib) :
    a.dependencies.Perm b.dependencies ∧ a.requiresPython = b.requiresPython ∧
      a.prerelease = b.prerelease ∧ ia = ib := by
  rw [UvDependencies.hashInput_eq, UvDependencies.hashInput_eq] at he
  -- nothing in front of the id can be taken for a part of it, which has no newline
  have hfree : ∀ line id : Text, '\n' ∉ id → ¬ line ++ ['\n'] <+: "env_id:".toList ++ id := by
    rintro line id hn ⟨_, hr⟩
    have hm : '\n' ∈ "env_id:".toList ++ id := hr ▸ by simp
    simp [hn] at hm
  obtain ⟨hf, hid⟩ := lines_inj (fun line hl => ⟨ha.front line hl, hfree line ib hj⟩)
    (fun line hl => ⟨hb.front line hl, hfree line ia hi⟩) (bytes_inj he)
  obtain ⟨hd, hp, hr⟩ := front_inj hf
  exact ⟨perm_of_sorted hd, hp, hr, append_cancel_left hid⟩

def TAIL_LABELS : List Text :=
  ["python-abi", "anaconda-channel-aliases", "env_id"].map String.toList

theorem condaTail_label (abi aliases : Bool) (envId : Option Text) :
    condaTail abi aliases envId = [] ∨
      ∃ label ∈ TAIL_LABELS, ∃ rest, condaTail abi aliases envId = label ++ ':' :: rest := by
  cases abi <;> cases aliases <;> cases envId <;> simp [TAIL_LABELS, condaTail, flagged, labelled]

theorem condaTail_inj (he : condaTail a b e = condaTail a' b' e') : e = e' := by
  cases a <;> cases a' <;> cases b <;> cases b' <;> cases e <;> cases e' <;>
    simp_all [condaTail, flagged, labelled]

-- The three labels that can follow the python constraint end differently.
theorem python_inj (hp : ':' ∉ p) (hq : ':' ∉ q)
    (he : p ++ condaTail a b e = q ++ condaTail a' b' e') : p = q := by
  rcases condaTail_label a b e with ht | ⟨label, hl, rest, ht⟩ <;>
    rcases condaTail_label a' b' e' with hu | ⟨label', hl', rest', hu⟩ <;> rw [ht, hu] at he
  · simpa using he
  · simp only [append_nil] at he
    exact absurd (by simp [he]) hp
  · simp only [append_nil] at he
    exact absurd (by simp [← he]) hq
  · have hlabel : ∀ name ∈ TAIL_LABELS, ':' ∉ name := by decide
    have hcut : (p ++ label) ++ ':' :: rest = (q ++ label') ++ ':' :: rest' := by simpa using he
    obtain ⟨hcut, _⟩ := cut_inj (by simp [hp, hlabel label hl]) (by simp [hq, hlabel label' hl'])
      hcut
    have hlast := congrArg List.getLast? hcut
    simp only [TAIL_LABELS, map_cons, map_nil, mem_cons, not_mem_nil, or_false] at hl hl'
    rcases hl with rfl | rfl | rfl <;> rcases hl' with rfl | rfl | rfl <;>
      first | exact append_cancel_right hcut | simp at hlast

theorem channels_inj {c d : List Text} (ha : ∀ x ∈ a, ¬ "channel:".toList <+: x)
    (hb : ∀ x ∈ b, ¬ "channel:".toList <+: x)
    (he : a ++ c.map ("channel:".toList ++ ·) = b ++ d.map ("channel:".toList ++ ·)) :
    a = b ∧ c = d := by
  have hnone : ∀ l : List Text, (∀ x ∈ l, ¬ "channel:".toList <+: x) →
      l.filter (fun x => "channel:".toList.isPrefixOf x) = [] := by
    intro l hl
    exact filter_eq_nil_iff.mpr fun x hx => by simpa using hl x hx
  have hall : ∀ l : List Text, (l.map ("channel:".toList ++ ·)).filter
      (fun x => "channel:".toList.isPrefixOf x) = l.map ("channel:".toList ++ ·) := by
    intro l
    exact filter_eq_self.mpr (by simp)
  have hf := congrArg (List.filter fun x => "channel:".toList.isPrefixOf x) he
  simp only [filter_append, hnone a ha, hnone b hb, hall, nil_append] at hf
  have hcd : c = d := map_injective_iff.mpr (fun _ _ => append_cancel_left) hf
  subst hcd
  exact ⟨append_cancel_right he, rfl⟩

namespace CondaDependencies

def front (deps : CondaDependencies) : List Text :=
  sorted deps.dependencies ++ deps.channels.map ("channel:".toList ++ ·)

def tail (deps : CondaDependencies) (abi : Bool) : Text :=
  labelled "python:" deps.python ++ condaTail abi deps.usesAliases deps.envId

theorem hashInput_eq (constrainsAbi : CondaDependencies → Bool) (deps : CondaDependencies) :
    deps.hashInput constrainsAbi = bytes (lines deps.front ++ deps.tail (constrainsAbi deps)) := by
  simp [hashInput, front, tail]

theorem prefix_line (hn : '\n' ∉ label) (hl : label <+: text) (hp : line ++ ['\n'] <+: text) :
    label <+: line := by
  rcases prefix_or_prefix_of_prefix hl hp with h | h
  · rcases prefix_concat_iff.mp h with rfl | h
    · simp at hn
    · exact h
  · exact absurd (h.subset (by simp)) hn

-- What follows the lines is empty or starts with a label that no line starts with.
theorem tail_label (deps : CondaDependencies) (abi : Bool) : deps.tail abi = [] ∨
    ∃ label ∈ CONDA_LABELS, label ≠ "channel:".toList ∧ label <+: deps.tail abi := by
  cases hp : deps.python with
  | some python =>
    exact .inr ⟨"python:".toList, by decide, by decide, by simp [tail, hp, labelled]⟩
  | none =>
    have ht : deps.tail abi = condaTail abi deps.usesAliases deps.envId := by
      simp [tail, hp, labelled]
    rw [ht]
    rcases condaTail_label abi deps.usesAliases deps.envId with hn | ⟨label, hl, _, hc⟩
    · exact .inl hn
    · have hin : ∀ label ∈ TAIL_LABELS, label ++ [':'] ∈ CONDA_LABELS ∧
          label ++ [':'] ≠ "channel:".toList := by decide
      exact .inr ⟨label ++ [':'], (hin label hl).1, (hin label hl).2, by simp [hc]⟩

theorem Unlabelled.front {deps other : CondaDependencies} (hu : deps.Unlabelled) (abi : Bool) :
    ∀ line ∈ deps.front, '\n' ∉ line ∧ ¬ line ++ ['\n'] <+: other.tail abi := by
  have hlabel : ∀ label ∈ CONDA_LABELS, '\n' ∉ label := by decide
  have hfree : ∀ line, (∀ label ∈ CONDA_LABELS, label ≠ "channel:".toList → ¬ label <+: line) →
      ¬ line ++ ['\n'] <+: other.tail abi := by
    intro line hno hp
    rcases other.tail_label abi with hn | ⟨label, hl, hc, ht⟩
    · simp [hn] at hp
    · exact hno label hl hc (prefix_line (hlabel label hl) ht hp)
  intro line hl
  rcases mem_append.mp hl with hd | hc
  · obtain ⟨hn, hno⟩ := hu.dependencies line (mem_sorted.mp hd)
    exact ⟨hn, hfree line fun label hl _ => hno label hl⟩
  · obtain ⟨channel, hm, rfl⟩ := mem_map.mp hc
    refine ⟨by simpa using hu.channels channel hm, hfree _ ?_⟩
    intro label hl hne
    simp only [CONDA_LABELS, map_cons, map_nil, mem_cons, not_mem_nil, or_false] at hl
    rcases hl with rfl | rfl | rfl | rfl | rfl
    · exact absurd rfl hne
    all_goals simp

theorem tail_inj {a b : CondaDependencies} (ha : a.Unlabelled) (hb : b.Unlabelled)
    (he : a.tail abi = b.tail abi') : a.python = b.python ∧ a.envId = b.envId := by
  -- the label of the constraint is not one that can stand without it
  have hno : ∀ deps : CondaDependencies, ∀ rest abi,
      "python:".toList ++ rest ≠ condaTail abi deps.usesAliases deps.envId := by
    intro deps rest abi hr
    cases abi <;> cases hal : deps.usesAliases <;> cases hid : deps.envId <;>
      simp [condaTail, flagged, labelled, hal, hid] at hr
  unfold tail at he
  cases hp : a.python <;> cases hq : b.python <;> simp only [hp, hq, labelled, nil_append,
    append_assoc] at he
  · exact ⟨rfl, condaTail_inj he⟩
  · exact absurd he.symm (hno a _ _)
  · exact absurd he (hno b _ _)
  · case some.some p q =>
    have he := append_cancel_left he
    obtain rfl := python_inj (ha.python p hp) (hb.python q hq) he
    exact ⟨rfl, condaTail_inj (append_cancel_left he)⟩

end CondaDependencies

theorem conda_separate {a b : CondaDependencies} (ha : a.Unlabelled) (hb : b.Unlabelled)
    (he : a.hashInput constrainsAbi = b.hashInput constrainsAbi) :
    a.dependencies.Perm b.dependencies ∧ a.channels = b.channels ∧ a.python = b.python ∧
      a.envId = b.envId := by
  rw [CondaDependencies.hashInput_eq, CondaDependencies.hashInput_eq] at he
  obtain ⟨hf, ht⟩ := lines_inj (ha.front _) (hb.front _) (bytes_inj he)
  have hfree : ∀ deps : CondaDependencies, deps.Unlabelled →
      ∀ dep ∈ sorted deps.dependencies, ¬ "channel:".toList <+: dep := by
    intro deps hu dep hd
    exact (hu.dependencies dep (mem_sorted.mp hd)).2 _ (by decide)
  obtain ⟨hd, hc⟩ := channels_inj (hfree a ha) (hfree b hb) hf
  exact ⟨perm_of_sorted hd, hc, CondaDependencies.tail_inj ha hb ht⟩

theorem env_hash_inputs_separate (constrainsAbi : CondaDependencies → Bool) :
    (∀ (a b : UvDependencies) (ia ib : Text), a.OneLine → b.OneLine → '\n' ∉ ia → '\n' ∉ ib →
      a.hashInput ia = b.hashInput ib → a.dependencies.Perm b.dependencies ∧
        a.requiresPython = b.requiresPython ∧ a.prerelease = b.prerelease ∧ ia = ib) ∧
    ∀ a b : CondaDependencies, a.Unlabelled → b.Unlabelled →
      a.hashInput constrainsAbi = b.hashInput constrainsAbi →
        a.dependencies.Perm b.dependencies ∧ a.channels = b.channels ∧ a.python = b.python ∧
          a.envId = b.envId :=
  ⟨fun _ _ _ _ ha hb hi hj he => uv_separate ha hb hi hj he,
    fun _ _ ha hb he => conda_separate ha hb he⟩

theorem channel_order_separates :
    UvDependencies.hashInput ⟨["numpy".toList], none, none⟩ "1".toList ≠
        UvDependencies.hashInput ⟨["numpy".toList], none, none⟩ "2".toList ∧
      CondaDependencies.hashInput (fun _ => false) ⟨[], ["a".toList, "b".toList], none, none⟩ ≠
        CondaDependencies.hashInput (fun _ => false) ⟨[], ["b".toList, "a".toList], none, none⟩ := by
  constructor
  · intro he
    have hs := (env_hash_inputs_separate fun _ => false).1 _ _ _ _ ⟨by decide, by simp, by simp⟩
      ⟨by decide, by simp, by simp⟩ (by decide) (by decide) he
    exact absurd hs.2.2.2 (by decide)
  · intro he
    have hs := (env_hash_inputs_separate _).2 _ _ ⟨by simp, by decide, by simp⟩
      ⟨by simp, by decide, by simp⟩ he
    exact absurd hs.2.1 (by decide)

-- A newline moves the python request into the prerelease, and a dependency can be written like a
-- channel.
theorem env_hash_inputs_collide :
    UvDependencies.hashInput ⟨[], some "3\nprerelease:allow".toList, none⟩ "1".toList =
        UvDependencies.hashInput ⟨[], some "3".toList, some "allow".toList⟩ "1".toList ∧
      CondaDependencies.hashInput (fun _ => false) ⟨["channel:x".toList], [], none, none⟩ =
        CondaDependencies.hashInput (fun _ => false) ⟨[], ["x".toList], none, none⟩ := by
  constructor
  · simp [UvDependencies.hashInput, sorted, labelled]
  · have hd : CondaDependencies.usesAliases ⟨["channel:x".toList], [], none, none⟩ = false := by
      decide
    have hc : CondaDependencies.usesAliases ⟨[], ["x".toList], none, none⟩ = false := by decide
    simp only [CondaDependencies.hashInput, hd, hc]
    simp [sorted]

end Nteract.EnvHash
