import Nteract.Lib.Requirement
import Nteract.TrustedPackages

namespace Nteract.TrustedPackages

open Lib Requirement Option
open List hiding after tail

theorem normalizeFrom_true (text : Text) :
    normalizeFrom true text = normalizeFrom false (text.dropWhile isSeparator) := by
  induction text with
  | nil => rfl
  | cons c _ ih =>
    by_cases hc : isSeparator c = true
    · have hs : isNameSeparator c = true := hc
      rw [dropWhile_cons_of_pos hc, ← ih]
      simp [normalizeFrom, hs]
    · have hs : isNameSeparator c = false := Bool.eq_false_iff.mpr hc
      rw [dropWhile_cons_of_neg hc]
      simp [normalizeFrom, hs]

theorem normalizeFrom_eq_canonicalName (text : Text) :
    normalizeFrom false text = canonicalName text := by
  fun_induction canonicalName text with
  | case1 => rfl
  | case2 c _ hc ih =>
    have hs : isNameSeparator c = true := hc
    rw [← ih, ← normalizeFrom_true]
    simp [normalizeFrom, hs]
  | case3 c _ hc ih =>
    have hs : isNameSeparator c = false := Bool.eq_false_iff.mpr hc
    rw [← ih]
    simp [normalizeFrom, hs]

theorem isRegistryNameChar_eq : isRegistryNameChar = isNameChar := by
  funext c
  simp [isRegistryNameChar, isNameChar, isSeparator, Bool.or_assoc]

theorem normalizeRegistryName_eq_some (hn : normalizeRegistryName name = some normalized) :
    isIdentifier name = true ∧ canonicalName name = normalized := by
  obtain ⟨_, hf, hn⟩ := bind_eq_some_iff.mp hn
  obtain ⟨_, hl, hn⟩ := bind_eq_some_iff.mp hn
  split at hn
  · cases hn
  · rename_i hv
    simp only [Bool.or_eq_true, Bool.not_eq_true', not_or] at hv
    cases hn
    refine ⟨?_, (normalizeFrom_eq_canonicalName name).symm⟩
    simp [isIdentifier, hf, hl, hv.1.1, hv.1.2, ← isRegistryNameChar_eq, hv.2]

-- What the scanner reads after the name, and where the version clause starts.
def nameTail (spec : Text) : Text :=
  Text.trimStart ((requirementText spec).dropWhile isRegistryNameChar)

def clauseText (spec : Text) : Text := Text.trimStart ((afterExtras (nameTail spec)).getD [])

-- The checks a spec passes on its way to a registry identity.
structure Scanned (spec name : Text) : Prop where
  direct : '@' ∉ spec
  archive : namesArchive (requirementText spec) = false
  named : normalizeRegistryName (rawName (requirementText spec)) = some name
  extras : (afterExtras (nameTail spec)).isSome
  clause : isVersionClause (clauseText spec) = true

theorem classifyPypiSpec_eq_none (raw : Text) :
    classifyPypiSpec raw = none ↔ Text.trim raw = [] := by
  unfold classifyPypiSpec
  dsimp only
  repeat' split
  all_goals simp_all

theorem classifyPypiSpec_registry (raw name : Text) :
    classifyPypiSpec raw = some (.Registry name) ↔ Scanned (Text.trim raw) name := by
  constructor
  · intro hc
    unfold classifyPypiSpec at hc
    dsimp only at hc
    split at hc
    · cases hc
    split at hc
    · cases hc
    rename_i hd
    split at hc
    · cases hc
    rename_i ha
    split at hc
    · cases hc
    rename_i hn
    split at hc
    · cases hc
    rename_i rest hr
    have ht : afterExtras (nameTail (Text.trim raw)) = some rest := hr
    split at hc
    · rename_i hclause
      cases hc
      refine ⟨hd, Bool.eq_false_iff.mpr ha, hn, by simp [ht], ?_⟩
      simpa [clauseText, ht] using hclause
    · cases hc
  · intro hs
    obtain ⟨rest, hr⟩ := isSome_iff_exists.mp hs.extras
    have hn : Text.trim raw ≠ [] := by
      intro hn
      have hnamed := hs.named
      rw [hn] at hnamed
      cases hnamed
    have hclause := hs.clause
    rw [clauseText, hr] at hclause
    unfold nameTail at hr
    simp [classifyPypiSpec, hn, hs.direct, hs.archive, hs.named, hr]
    exact hclause

theorem classifyPypiSpec_cases (hc : classifyPypiSpec raw = some identity) :
    identity = .Exact (Text.trim raw) ∨ ∃ name, identity = .Registry name := by
  unfold classifyPypiSpec at hc
  dsimp only at hc
  repeat' split at hc
  all_goals cases hc
  all_goals first | exact .inl rfl | exact .inr ⟨_, rfl⟩

theorem afterExtras_split (hr : afterExtras tail = some rest) :
    tail = rest ∨ ∃ afterOpen body, tail = '[' :: afterOpen ∧
      Text.splitOnce [']'] afterOpen = some (body, rest) ∧ body.all isExtrasChar = true := by
  unfold afterExtras at hr
  split at hr
  · rename_i afterOpen
    split at hr
    · cases hr
    · rename_i body afterClose hs
      split at hr
      · rename_i hb
        cases hr
        exact Or.inr ⟨afterOpen, body, rfl, hs, hb⟩
      · cases hr
  · exact Or.inl (some.inj hr)

theorem afterExtras_append (hr : afterExtras tail = some rest) : ∃ extras, tail = extras ++ rest ∧
      (extras = [] ∨ ∃ body, extras = '[' :: body ++ [']'] ∧ body.all isExtrasChar = true ∧
        ∃ afterOpen, tail = '[' :: afterOpen ∧ Text.splitOnce [']'] afterOpen = some (body, rest)) := by
  rcases afterExtras_split hr with ht | ⟨afterOpen, body, ht, hs, hb⟩
  · exact ⟨[], ht, Or.inl rfl⟩
  · have ho := (Text.splitOnce_eq_some hs).1
    refine ⟨'[' :: body ++ [']'], ?_, Or.inr ⟨body, rfl, hb, afterOpen, ht, hs⟩⟩
    rw [ht, ho]
    simp

theorem requirementText_append (spec : Text) :
    ∃ blank, spec.takeWhile (· ≠ ';') = requirementText spec ++ blank ∧
      ∀ c ∈ blank, Text.isWhitespace c :=
  Text.trimEnd_split _

theorem nameTail_append (spec : Text) :
    ∃ blank, requirementText spec = rawName (requirementText spec) ++ blank ++ nameTail spec ∧
      ∀ c ∈ blank, Text.isWhitespace c := by
  obtain ⟨blank, hb, hs⟩ :=
    Text.trimStart_split ((requirementText spec).dropWhile isRegistryNameChar)
  refine ⟨blank, ?_, hs⟩
  calc requirementText spec
      = rawName (requirementText spec) ++ (requirementText spec).dropWhile isRegistryNameChar :=
        takeWhile_append_dropWhile.symm
    _ = rawName (requirementText spec) ++ (blank ++ nameTail spec) :=
        congrArg (rawName (requirementText spec) ++ ·) hb
    _ = rawName (requirementText spec) ++ blank ++ nameTail spec :=
        (append_assoc ..).symm

theorem clauseText_append (hr : afterExtras (nameTail spec) = some rest) :
    ∃ blank, rest = blank ++ clauseText spec ∧ ∀ c ∈ blank, Text.isWhitespace c := by
  obtain ⟨blank, hb, hs⟩ := Text.trimStart_split rest
  refine ⟨blank, ?_, hs⟩
  rw [clauseText, hr]
  exact hb

-- The parts that the scanner does not parse, at the places where it finds them.
structure PartsWellFormed (spec : Text) : Prop where
  blanks : ∀ c ∈ spec.takeWhile (· ≠ ';'), Text.isWhitespace c → isBlank c
  extras : ∀ afterOpen body rest, nameTail spec = '[' :: afterOpen →
    Text.splitOnce [']'] afterOpen = some (body, rest) → ExtrasBody body
  versions : clauseText spec = [] ∨ VersionSpec (clauseText spec)
  marker : spec.dropWhile (· ≠ ';') = [] ∨ QuotedMarker (spec.dropWhile (· ≠ ';'))

theorem trimEnd_append {left blank : Text} (hl : ∃ c ∈ left.getLast?, Text.isWhitespace c = false)
    (hb : Blank blank) : Text.trimEnd (left ++ blank) = left := by
  obtain ⟨c, hc, hw⟩ := hl
  obtain ⟨front, rfl⟩ := getLast?_eq_some_iff.mp hc
  have hs : ∀ d ∈ blank.reverse, Text.isWhitespace d = true := fun d hd =>
    Blank.isWhitespace hb d (mem_reverse.mp hd)
  rw [Text.trimEnd, rdropWhile, reverse_append, dropWhile_append_of_pos hs, reverse_append,
    reverse_singleton, singleton_append, dropWhile_cons_of_neg (by simp [hw])]
  simp

theorem splitOnce_append {body : Text} (hn : c ∉ body) (rest : Text) :
    Text.splitOnce [c] (body ++ c :: rest) = some (body, rest) := by
  induction body with
  | nil => simp [Text.splitOnce]
  | cons d body ih =>
    simp only [mem_cons, not_or] at hn
    simp [Text.splitOnce, ih hn.2, hn.1]

theorem dropWhile_append {isMember : Char → Bool} {front rest : Text}
    (hf : ∀ c ∈ front, isMember c) (hr : ∀ c ∈ rest.head?, isMember c = false) :
    (front ++ rest).dropWhile isMember = rest := by
  rw [dropWhile_append_of_pos hf]
  cases rest with
  | nil => rfl
  | cons c rest => exact dropWhile_cons_of_neg (by simp [hr c rfl])

-- The scanner finds the parts of a requirement at their places.
theorem normalParts_scanned (hn : isIdentifier name = true)
    (hp : NormalParts afterName extras between clause after marker)
    (hspec : spec = name ++ afterName ++ (extras ++ between ++ clause) ++ after ++ marker) :
    Spelled (spec.takeWhile (· ≠ ';')) ∧ spec.dropWhile (· ≠ ';') = marker ∧
      nameTail spec = extras ++ between ++ clause := by
  obtain ⟨ha, hb, hafter⟩ := hp.blanks
  have he : Spelled extras := by
    rcases hp.bracketed with rfl | he
    · exact spelled_nil
    · exact he.spelled
  have hc : Spelled clause := by
    rcases hp.versions with rfl | ⟨hv, -⟩
    · exact spelled_nil
    · exact hv.spelled
  have hs : Spelled (name ++ afterName ++ (extras ++ between ++ clause) ++ after) :=
    (((spelled_of_isIdentifier hn).append ha.spelled).append
      ((he.append hb.spelled).append hc)).append hafter.spelled
  have hu : ∀ c ∈ name ++ afterName ++ (extras ++ between ++ clause) ++ after,
      decide (c ≠ ';') = true := fun c hc => decide_eq_true (hs.unmarked c hc)
  have htake : spec.takeWhile (· ≠ ';') =
      name ++ afterName ++ (extras ++ between ++ clause) ++ after := by
    rw [hspec, takeWhile_append_of_pos hu]
    rcases hp.quoted with rfl | ⟨_, _⟩ <;> simp
  refine ⟨htake ▸ hs, ?_, ?_⟩
  · rw [hspec]
    refine dropWhile_append hu fun c hc => ?_
    rcases hp.quoted with rfl | ⟨_, _⟩
    · cases hc
    · cases hc
      rfl
  · rw [nameTail, requirementText, htake, trimEnd_append (hp.closed hn) hafter,
      isRegistryNameChar_eq, append_assoc, dropWhile_append, Text.trimStart, dropWhile_append]
    · exact ha.isWhitespace
    · exact fun c hc => (hp.tail_head c hc).2
    · exact identifier_chars hn
    · intro c hc
      cases afterName with
      | nil => exact (hp.tail_head c hc).1
      | cons d _ =>
        cases hc
        exact isBlank_not_isNameChar (ha c (.head _))

theorem afterExtras_normalParts
    (hp : NormalParts afterName extras between clause after marker) :
    afterExtras (extras ++ between ++ clause) = some (between ++ clause) ∧
      ∀ afterOpen body rest, extras ++ between ++ clause = '[' :: afterOpen →
        Text.splitOnce [']'] afterOpen = some (body, rest) → ExtrasBody body := by
  rcases hp.bracketed with rfl | he
  · have hc : ∀ rest, clause ≠ '[' :: rest := by
      rintro rest rfl
      exact absurd (hp.clause_head '[' rfl) (by decide)
    rw [hp.oneLeft (.inl rfl), nil_append, nil_append]
    refine ⟨?_, fun afterOpen _ _ ho => absurd ho (hc afterOpen)⟩
    unfold afterExtras
    split
    · exact absurd rfl (hc _)
    · rfl
  · obtain @⟨body, hbody⟩ := he
    have hn : ']' ∉ body := fun hm => absurd (hbody.chars _ hm) (by decide)
    have hs := splitOnce_append hn (between ++ clause)
    have ht : '[' :: body ++ [']'] ++ between ++ clause =
        '[' :: (body ++ ']' :: (between ++ clause)) := by simp
    rw [ht]
    constructor
    · have ha : body.all isExtrasChar = true := by
        refine all_eq_true.mpr fun c hc => ?_
        simpa [isExtrasChar, isRegistryNameChar_eq, isListChar, isBlank, Bool.or_assoc,
          Bool.or_comm (decide (c = ','))] using hbody.chars c hc
      simp only [afterExtras, hs, ha, if_true]
    · intro afterOpen found rest ho hf
      cases ho
      cases hs.symm.trans hf
      exact hbody

theorem partsWellFormed_of_nameRequirement (hr : NameRequirement name spec) :
    PartsWellFormed spec := by
  obtain ⟨afterName, extras, between, clause, after, marker, hspec, hp⟩ := hr.normalParts
  obtain ⟨hspelled, hmarker, htail⟩ := normalParts_scanned hr.identifier hp hspec
  obtain ⟨hextras, hbody⟩ := afterExtras_normalParts hp
  have hclause : clauseText spec = clause := by
    rw [clauseText, htail, hextras]
    exact dropWhile_append hp.blanks.2.1.isWhitespace fun c hc =>
      (opensClause_solid (hp.clause_head c hc)).2
  refine ⟨fun c hc => isPartChar_blank (hspelled c hc), ?_, ?_, ?_⟩
  · rw [htail]
    exact hbody
  · rw [hclause]
    exact hp.versions.imp_right And.left
  · rw [hmarker]
    exact hp.quoted

-- No direct reference, no path or URL, no installer option, no archive before the semicolon.
structure NoOwnSource (spec : Text) : Prop where
  direct : '@' ∉ spec
  first : (requirementText spec).head?.any Char.isAlphanum = true
  chars : ∀ c ∈ requirementText spec, isNameChar c ∨ Text.isWhitespace c ∨ c = '[' ∨ c = ']' ∨
    c = ',' ∨ isVersionClauseChar c
  archive : namesArchive (requirementText spec) = false

section

variable (hs : Scanned spec name)
include hs

theorem Scanned.identifier :
    isIdentifier (rawName (requirementText spec)) = true ∧
      canonicalName (rawName (requirementText spec)) = name :=
  normalizeRegistryName_eq_some hs.named

theorem Scanned.nameRequirement (hp : PartsWellFormed spec) :
    NameRequirement (rawName (requirementText spec)) spec := by
  obtain ⟨afterVersions, hr, hspace⟩ := requirementText_append spec
  obtain ⟨afterName, hname, hn⟩ := nameTail_append spec
  obtain ⟨rest, hrest⟩ := isSome_iff_exists.mp hs.extras
  obtain ⟨extras, htail, he⟩ := afterExtras_append hrest
  obtain ⟨between, hclause, hbetween⟩ := clauseText_append hrest
  have ht : spec.takeWhile (· ≠ ';') = rawName (requirementText spec) ++ afterName ++ extras ++
      between ++ clauseText spec ++ afterVersions := by
    rw [hr]
    nth_rewrite 1 [hname]
    rw [htail, hclause]
    simp only [append_assoc]
  -- every blank stands before the semicolon
  have hb : ∀ blank : Text, (∀ c ∈ blank, Text.isWhitespace c) →
      (∀ c ∈ blank, c ∈ spec.takeWhile (· ≠ ';')) → Blank blank := by
    intro blank hw hin c hc
    exact hp.blanks c (hin c hc) (hw c hc)
  refine ⟨hs.identifier.1, afterName, extras, between, clauseText spec, afterVersions,
    spec.dropWhile (· ≠ ';'), ?_, ?_, ?_, ?_, ?_, hp.versions, hp.marker⟩
  · rw [← ht, takeWhile_append_dropWhile]
  · refine hb afterName hn fun c hc => ?_
    rw [ht]
    simp [hc]
  · refine hb between hbetween fun c hc => ?_
    rw [ht]
    simp [hc]
  · refine hb afterVersions hspace fun c hc => ?_
    rw [ht]
    simp [hc]
  · rcases he with hempty | ⟨body, hbody, -, afterOpen, ho, hsplit⟩
    · exact Or.inl hempty
    · rw [hbody]
      exact Or.inr (.Bracketed (hp.extras afterOpen body rest ho hsplit))

theorem Scanned.noOwnSource : NoOwnSource spec := by
  obtain ⟨_, hname, hn⟩ := nameTail_append spec
  obtain ⟨_, hr⟩ := isSome_iff_exists.mp hs.extras
  obtain ⟨_, ht, hextras⟩ := afterExtras_append hr
  obtain ⟨_, hclause, hb⟩ := clauseText_append hr
  have hi := hs.identifier.1
  simp only [isIdentifier, Bool.and_eq_true] at hi
  refine ⟨hs.direct, ?_, ?_, hs.archive⟩
  · rw [hname, append_assoc, List.head?_append_of_ne_nil]
    · exact hi.1.1
    · intro he
      rw [he] at hi
      exact absurd hi.1.1 (by simp)
  · intro c hc
    rw [hname, ht, hclause] at hc
    simp only [mem_append] at hc
    rcases hc with (hc | hc) | hc | hc | hc
    · exact Or.inl (all_eq_true.mp hi.2 c hc)
    · exact Or.inr (Or.inl (hn c hc))
    · rcases hextras with he | ⟨_, hbody, ha, -⟩
      · rw [he] at hc
        cases hc
      · rw [hbody] at hc
        simp only [cons_append, mem_cons, mem_append, not_mem_nil, or_false] at hc
        rcases hc with hc | hc | hc
        · simp [hc]
        · have hchar := all_eq_true.mp ha c hc
          simp only [isExtrasChar, isRegistryNameChar_eq, Bool.or_eq_true, decide_eq_true_eq]
            at hchar
          rcases hchar with ((hchar | hchar) | hchar) | hchar
          · exact Or.inl hchar
          · simp [hchar]
          · exact Or.inr (Or.inl (hchar ▸ by decide))
          · exact Or.inr (Or.inl (hchar ▸ by decide))
        · simp [hc]
    · exact Or.inr (Or.inl (hb c hc))
    · have ha := hs.clause
      simp only [isVersionClause, Bool.and_eq_true] at ha
      have hchar := all_eq_true.mp ha.2 c hc
      simp [hchar]

end

-- The match spec names one package and leaves its source to the configured channels.
def NamesPackage (parse : MatchSpecParser) (packageSpec name : Text) : Prop :=
  ∃ parsed exact, parse packageSpec = some parsed ∧ parsed.channel = none ∧ parsed.url = none ∧
    parsed.exactName = some exact ∧ isIdentifier exact = true ∧ canonicalName exact = name

inductive CondaReading (parse : MatchSpecParser) (spec : Text) : SpecIdentity → Prop
  | Exact : CondaReading parse spec (.Exact spec)
  | Registry (hqualifier : ∀ left right, spec ≠ left ++ [':', ':'] ++ right)
      (hname : NamesPackage parse spec name) : CondaReading parse spec (.Registry name)
  | Channel (htext : spec = before ++ [':', ':'] ++ after)
      (hfirst : ∀ left right, spec = left ++ [':', ':'] ++ right → before.length ≤ left.length)
      (hsome : Text.trim before ≠ []) (hname : NamesPackage parse (Text.trim after) name) :
      CondaReading parse spec (.ChannelRegistry (Text.trim before) name)

theorem registryName_eq_some (hn : registryName parse packageSpec = some name) :
    NamesPackage parse packageSpec name := by
  unfold registryName at hn
  obtain ⟨parsed, hp, hn⟩ := bind_eq_some_iff.mp hn
  split at hn
  · cases hn
  · rename_i hs
    simp only [Bool.or_eq_true, not_or, not_isSome_iff_eq_none] at hs
    obtain ⟨exact, he, hn⟩ := bind_eq_some_iff.mp hn
    obtain ⟨hi, hc⟩ := normalizeRegistryName_eq_some hn
    exact ⟨parsed, exact, hp, hs.1, hs.2, he, hi, hc⟩

theorem classifyCondaSpec_reading (hc : classifyCondaSpec parse raw = some identity) :
    CondaReading parse (Text.trim raw) identity := by
  unfold classifyCondaSpec at hc
  dsimp only at hc
  split at hc
  · cases hc
  split at hc
  · cases hc
    exact .Exact
  split at hc
  · cases hc
    exact .Exact
  rename_i hchannel
  split at hc
  · cases hc
    exact .Exact
  rename_i name hn
  cases hs : Text.splitOnce [':', ':'] (Text.trim raw) with
  | none =>
    have hw : splitChannel (Text.trim raw) = (none, Text.trim raw) := by
      simp [splitChannel, hs]
    rw [hw] at hc hn
    cases hc
    exact .Registry (Text.splitOnce_eq_none hs) (registryName_eq_some hn)
  | some parts =>
    obtain ⟨before, after⟩ := parts
    have hq : splitChannel (Text.trim raw) = (some (Text.trim before), Text.trim after) := by
      simp [splitChannel, hs]
    rw [hq] at hc hn hchannel
    cases hc
    obtain ⟨ht, hf⟩ := Text.splitOnce_eq_some hs
    refine .Channel ht hf ?_ (registryName_eq_some hn)
    intro he
    exact hchannel (Or.inl (congrArg some he))

-- A registry identity is the canonical name of the package that the spec names, exactly where
-- the parts that are not parsed are well formed.
theorem registry_identity_named (parse : MatchSpecParser) (raw : Text) :
    (classifyPypiSpec raw = none ↔ Text.trim raw = []) ∧
    (∀ identity, classifyPypiSpec raw = some identity →
      identity = .Exact (Text.trim raw) ∨
        ∃ normalized, identity = .Registry normalized ∧ NoOwnSource (Text.trim raw)) ∧
    ((∀ normalized, classifyPypiSpec raw = some (.Registry normalized) →
        ∃ name, NameRequirement name (Text.trim raw) ∧ canonicalName name = normalized) ↔
      (∀ normalized, Scanned (Text.trim raw) normalized → PartsWellFormed (Text.trim raw))) ∧
    (∀ identity, classifyCondaSpec parse raw = some identity →
      CondaReading parse (Text.trim raw) identity) := by
  refine ⟨classifyPypiSpec_eq_none raw, fun identity hc => ?_, ?_,
    fun identity => classifyCondaSpec_reading⟩
  · rcases classifyPypiSpec_cases hc with he | ⟨normalized, rfl⟩
    · exact Or.inl he
    · exact Or.inr ⟨normalized, rfl, ((classifyPypiSpec_registry raw _).mp hc).noOwnSource⟩
  · refine forall_congr' fun normalized => ?_
    rw [classifyPypiSpec_registry]
    refine imp_congr_right fun hs => ⟨fun ⟨_, hr, _⟩ => (partsWellFormed_of_nameRequirement hr), fun hp => ?_⟩
    exact ⟨_, hs.nameRequirement hp, hs.identifier.2⟩

-- `numpy[all] >=2; os_name=='nt'`
def markedSpec : Text := "numpy[all] >=2; os_name=='nt'".toList

theorem markedSpec_parts : PartsWellFormed markedSpec where
  blanks := by
    have hb : ((markedSpec.takeWhile (· ≠ ';')).filter Text.isWhitespace).all isBlank := by
      decide +kernel
    exact fun c hc hw => all_eq_true.mp hb c (mem_filter.mpr ⟨hc, hw⟩)
  extras := by
    intro afterOpen body rest ho hs
    have htail : nameTail markedSpec = '[' :: "all] >=2".toList := by decide +kernel
    have hbody : Text.splitOnce [']'] "all] >=2".toList = some ("all".toList, " >=2".toList) := by
      decide +kernel
    rw [htail] at ho
    injection ho with _ ho
    rw [← ho, hbody] at hs
    cases hs
    have ha : ExtrasList "all".toList := .One (by decide +kernel)
    have hl : ExtrasBody ([] ++ "all".toList ++ []) := .Listed blank_nil ha blank_nil
    rwa [append_nil] at hl
  versions := by
    have hclause : clauseText markedSpec = ">=2".toList := by decide +kernel
    have hone : VersionOne ([] ++ ">=".toList ++ [] ++ "2".toList ++ []) :=
      .Compared blank_nil (by decide +kernel) blank_nil (by decide +kernel)
        (all_eq_true.mp (by decide +kernel)) blank_nil
    have ht : [] ++ ">=".toList ++ [] ++ "2".toList ++ [] = ">=2".toList := by decide +kernel
    rw [ht] at hone
    exact Or.inr (hclause ▸ .Plain (.One hone))
  marker := by
    have hleft : MarkerVar ([] ++ "os_name".toList) := .Variable blank_nil (by decide +kernel)
    have hop : MarkerOp ([] ++ "==".toList) := .Comparison blank_nil (by decide +kernel)
    have hr : MarkerVar ([] ++ '\x27' :: "nt".toList ++ ['\x27']) :=
      .SingleQuoted blank_nil fun c hc =>
        .inl (all_eq_true.mp (by decide +kernel : "nt".toList.all isStringChar) c hc)
    have hq : QuotedMarker (';' :: " ".toList ++ ([] ++ "os_name".toList ++
        ([] ++ "==".toList) ++ ([] ++ '\x27' :: "nt".toList ++ ['\x27']))) :=
      .Quoted (all_eq_true.mp (by decide +kernel)) (.Joined (.Single (.Compare hleft hop hr)))
    have ht : markedSpec.dropWhile (· ≠ ';') = ';' :: " ".toList ++ ([] ++ "os_name".toList ++
        ([] ++ "==".toList) ++ ([] ++ '\x27' :: "nt".toList ++ ['\x27'])) := by
      decide +kernel
    exact Or.inr (ht ▸ hq)

theorem markedSpec_named :
    classifyPypiSpec markedSpec = some (.Registry "numpy".toList) ∧
      ∃ name, NameRequirement name markedSpec ∧ canonicalName name = "numpy".toList := by
  have hc : classifyPypiSpec markedSpec = some (.Registry "numpy".toList) := by decide +kernel
  have ht : Text.trim markedSpec = markedSpec := by decide +kernel
  refine ⟨hc, ?_⟩
  have hn := (registry_identity_named (fun _ => none) markedSpec).2.2.1.mpr
  rw [ht] at hn
  exact hn (fun _ _ => markedSpec_parts) _ hc

-- Whatever follows the semicolon, and a comparison without a version, pass for the package.
theorem malformed_specs_registered :
    (classifyPypiSpec "numpy;evil".toList = some (.Registry "numpy".toList) ∧
      ∀ name, ¬ NameRequirement name "numpy;evil".toList) ∧
    (classifyPypiSpec "numpy<".toList = some (.Registry "numpy".toList) ∧
      ∀ name, ¬ NameRequirement name "numpy<".toList) := by
  refine ⟨⟨by decide +kernel, ?_⟩, ⟨by decide +kernel, ?_⟩⟩
  · intro name hr
    have ht : "numpy;evil".toList.dropWhile (· ≠ ';') = ";evil".toList := by decide +kernel
    have hm := (partsWellFormed_of_nameRequirement hr).marker
    rw [ht] at hm
    rcases hm with he | hq
    · exact absurd he (by decide +kernel)
    · generalize htext : ";evil".toList = text at hq
      obtain ⟨_, hm⟩ := hq
      have hlong := hm.five_le
      have hl := congrArg List.length htext
      simp only [length_append, length_cons] at hl
      have hs : ";evil".toList.length = 5 := by decide +kernel
      omega
  · intro name hr
    have ht : clauseText "numpy<".toList = ['<'] := by decide +kernel
    have hv := (partsWellFormed_of_nameRequirement hr).versions
    rw [ht] at hv
    rcases hv with he | hv
    · cases he
    · obtain ⟨_, core, _, hcore, -, -, -, hs⟩ := hv.solid
      obtain ⟨c, hm, hc⟩ := hs.closes
      have hin : c ∈ ['<'] := by
        rw [hcore]
        simp [mem_of_getLast? hm]
      cases mem_singleton.mp hin
      exact absurd hc (by decide)

end Nteract.TrustedPackages
