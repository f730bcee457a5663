import Nteract.Lib.Text

namespace Nteract.Lib.Requirement

open List hiding after

-- The grammar of name-based dependency specifiers (PEP 508), as languages over characters.

def isBlank (c : Char) : Bool := c = ' ' || c = '\t'

-- `wsp*`.
def Blank (text : Text) : Prop := ∀ c ∈ text, isBlank c

theorem blank_nil : Blank [] := by nofun

def isSeparator (c : Char) : Bool := c = '-' || c = '_' || c = '.'

def isNameChar (c : Char) : Bool := c.isAlphanum || isSeparator c

-- `identifier`: letters and digits at both ends, separators only in between.
def isIdentifier (text : Text) : Bool :=
  text.head?.any Char.isAlphanum && text.getLast?.any Char.isAlphanum && text.all isNameChar

-- PEP 503: a run of separators is one hyphen, letters are lower case.
def canonicalName : Text → Text
  | [] => []
  | c :: rest =>
    if isSeparator c then
      '-' :: canonicalName (rest.dropWhile isSeparator)
    else
      c.toLower :: canonicalName rest
termination_by text => text.length
decreasing_by
  · exact Nat.lt_succ_of_le (length_dropWhile_le ..)
  · exact Nat.lt_succ_self _

-- `identifier (wsp* ',' wsp* identifier)*`.
inductive ExtrasList : Text → Prop
  | One (hname : isIdentifier name) : ExtrasList name
  | More (hfront : ExtrasList front) (hbefore : Blank before)
      (hafter : Blank after) (hname : isIdentifier name) :
      ExtrasList (front ++ before ++ ',' :: (after ++ name))

inductive ExtrasBody : Text → Prop
  | Empty (hblank : Blank blank) : ExtrasBody blank
  | Listed (hbefore : Blank before) (hnames : ExtrasList names)
      (hafter : Blank after) : ExtrasBody (before ++ names ++ after)

inductive Extras : Text → Prop
  | Bracketed (hbody : ExtrasBody body) : Extras ('[' :: body ++ [']'])

def comparisons : List Text :=
  ["<=".toList, "<".toList, "!=".toList, "==".toList, ">=".toList, ">".toList, "~=".toList,
    "===".toList]

def isVersionChar (c : Char) : Bool :=
  c.isAlphanum || c = '-' || c = '_' || c = '.' || c = '*' || c = '+' || c = '!'

-- `version_one`: a comparison and a version with white space around both.
inductive VersionOne : Text → Prop
  | Compared (hbefore : Blank before)
      (hop : op ∈ comparisons) (hmiddle : Blank middle) (hsome : version ≠ [])
      (hversion : ∀ c ∈ version, isVersionChar c) (hafter : Blank after) :
      VersionOne (before ++ op ++ middle ++ version ++ after)

inductive VersionMany : Text → Prop
  | One (hone : VersionOne one) : VersionMany one
  | More (hfront : VersionMany front) (hblank : Blank blank)
      (hone : VersionOne one) : VersionMany (front ++ blank ++ ',' :: one)

inductive VersionSpec : Text → Prop
  | Plain (hmany : VersionMany many) : VersionSpec many
  | Parenthesized (hmany : VersionMany many) : VersionSpec ('(' :: many ++ [')'])

def environmentVariables : List Text :=
  ["python_version".toList, "python_full_version".toList, "os_name".toList,
    "sys_platform".toList, "platform_release".toList, "platform_system".toList,
    "platform_version".toList, "platform_machine".toList,
    "platform_python_implementation".toList, "implementation_name".toList,
    "implementation_version".toList, "extra".toList]

-- `python_str_c`: neither quote is among them.
def isStringChar (c : Char) : Bool :=
  isBlank c || c.isAlphanum ||
    c ∈ ['(', ')', '.', '\x7b', '\x7d', '-', '_', '*', '#', ':', ';', ',', '/', '?', '[', ']',
      '!', '~', '\x60', '@', '$', '%', '^', '&', '=', '+', '|', '<', '>']

inductive MarkerVar : Text → Prop
  | Variable (hbefore : Blank before) (hname : name ∈ environmentVariables) :
      MarkerVar (before ++ name)
  | SingleQuoted (hbefore : Blank before)
      (hbody : ∀ c ∈ body, isStringChar c ∨ c = '\x22') :
      MarkerVar (before ++ '\x27' :: body ++ ['\x27'])
  | DoubleQuoted (hbefore : Blank before)
      (hbody : ∀ c ∈ body, isStringChar c ∨ c = '\x27') :
      MarkerVar (before ++ '\x22' :: body ++ ['\x22'])

inductive MarkerOp : Text → Prop
  | Comparison (hbefore : Blank before) (hop : op ∈ comparisons) :
      MarkerOp (before ++ op)
  | In (hbefore : Blank before) : MarkerOp (before ++ "in".toList)
  | NotIn (hbefore : Blank before) (hsome : middle ≠ [])
      (hmiddle : Blank middle) : MarkerOp (before ++ "not".toList ++ middle ++ "in".toList)

inductive Level
  | Expression
  | Conjunction
  | Disjunction
deriving DecidableEq

-- Chains of `and` and of `or` may have any length, as the installers read them.
inductive MarkerAt : Level → Text → Prop
  | Compare (hleft : MarkerVar left) (hop : MarkerOp op)
      (hright : MarkerVar right) : MarkerAt .Expression (left ++ op ++ right)
  | Parenthesized (hbefore : Blank before)
      (hbody : MarkerAt .Disjunction body) (hafter : Blank after) :
      MarkerAt .Expression (before ++ '(' :: body ++ after ++ [')'])
  | Single (htext : MarkerAt .Expression text) : MarkerAt .Conjunction text
  | And (hleft : MarkerAt .Conjunction left) (hblank : Blank blank)
      (hright : MarkerAt .Expression right) :
      MarkerAt .Conjunction (left ++ blank ++ "and".toList ++ right)
  | Joined (htext : MarkerAt .Conjunction text) : MarkerAt .Disjunction text
  | Or (hleft : MarkerAt .Disjunction left) (hblank : Blank blank)
      (hright : MarkerAt .Conjunction right) :
      MarkerAt .Disjunction (left ++ blank ++ "or".toList ++ right)

def Marker (text : Text) : Prop := MarkerAt .Disjunction text

inductive QuotedMarker : Text → Prop
  | Quoted (hblank : Blank blank) (hmarker : Marker marker) :
      QuotedMarker (';' :: blank ++ marker)

-- `name wsp* extras? wsp* versionspec? wsp* quoted_marker?`.
structure NameRequirement (name text : Text) : Prop where
  identifier : isIdentifier name
  parts : ∃ afterName extras afterExtras versions afterVersions marker : Text,
    text = name ++ afterName ++ extras ++ afterExtras ++ versions ++ afterVersions ++ marker ∧
      Blank afterName ∧ Blank afterExtras ∧ Blank afterVersions ∧
      (extras = [] ∨ Extras extras) ∧ (versions = [] ∨ VersionSpec versions) ∧
      (marker = [] ∨ QuotedMarker marker)

-- Only a marker starts with a semicolon, and nothing before it has one.
def Unmarked (text : Text) : Prop := ∀ c ∈ text, c ≠ ';'

def isPartChar (c : Char) : Bool :=
  isNameChar c || isBlank c ||
    c ∈ ['[', ']', ',', '(', ')', '<', '>', '=', '!', '~', '*', '+']

-- The characters of the parts before the marker.
def Spelled (text : Text) : Prop := ∀ c ∈ text, isPartChar c

theorem spelled_nil : Spelled [] := by nofun

theorem Spelled.append (hl : Spelled left) (hr : Spelled right) : Spelled (left ++ right) := by
  intro c hc
  rcases mem_append.mp hc with hc | hc
  · exact hl c hc
  · exact hr c hc

theorem Spelled.cons (hc : isPartChar c) (ht : Spelled text) : Spelled (c :: text) := by
  intro d hd
  rcases mem_cons.mp hd with hd | hd
  · exact hd ▸ hc
  · exact ht d hd

theorem Blank.spelled (hb : Blank text) : Spelled text := by
  intro c hc
  simp [isPartChar, hb c hc]

theorem identifier_chars (hn : isIdentifier text = true) : ∀ c ∈ text, isNameChar c := by
  simp only [isIdentifier, Bool.and_eq_true, all_eq_true] at hn
  exact hn.2

theorem spelled_of_isIdentifier (hn : isIdentifier text = true) : Spelled text := by
  intro c hc
  simp [isPartChar, identifier_chars hn c hc]

def isListChar (c : Char) : Bool := isNameChar c || isBlank c || c = ','

theorem ExtrasList.chars (hl : ExtrasList text) : ∀ c ∈ text, isListChar c := by
  have hi : ∀ name, isIdentifier name = true → ∀ c ∈ name, isListChar c := by
    intro name hn c hc
    simp [isListChar, identifier_chars hn c hc]
  induction hl with
  | One hname => exact hi _ hname
  | More _ hbefore hafter hname ih =>
    intro c hc
    simp only [mem_append, mem_cons] at hc
    rcases hc with (hc | hc) | rfl | hc | hc
    · exact ih c hc
    · simp [isListChar, hbefore c hc]
    · rfl
    · simp [isListChar, hafter c hc]
    · exact hi _ hname c hc

theorem ExtrasBody.chars (hb : ExtrasBody text) : ∀ c ∈ text, isListChar c := by
  intro c hc
  cases hb with
  | Empty hblank => simp [isListChar, hblank c hc]
  | Listed hbefore hnames hafter =>
    simp only [mem_append] at hc
    rcases hc with (hc | hc) | hc
    · simp [isListChar, hbefore c hc]
    · exact hnames.chars c hc
    · simp [isListChar, hafter c hc]

theorem Extras.spelled (he : Extras text) : Spelled text := by
  obtain ⟨hb⟩ := he
  refine (Spelled.cons (by decide) fun c hc => ?_).append (spelled_nil.cons (by decide))
  have hchar := hb.chars c hc
  simp only [isListChar, Bool.or_eq_true, decide_eq_true_eq] at hchar
  rcases hchar with (h | h) | h <;> simp [isPartChar, h]

theorem isPartChar_of_isVersionChar (hc : isVersionChar c = true) : isPartChar c = true := by
  simp only [isVersionChar, Bool.or_eq_true, decide_eq_true_eq] at hc
  rcases hc with (((((hc | hc) | hc) | hc) | hc) | hc) | hc <;>
    simp [isPartChar, isNameChar, isSeparator, hc]

theorem VersionOne.spelled (ho : VersionOne text) : Spelled text := by
  obtain ⟨hb, hop, hm, -, hv, ha⟩ := ho
  have hc : ∀ op ∈ comparisons, op.all isPartChar := by decide +kernel
  exact (((hb.spelled.append (all_eq_true.mp (hc _ hop))).append hm.spelled).append
    fun c hm => isPartChar_of_isVersionChar (hv c hm)).append ha.spelled

theorem VersionMany.spelled (hm : VersionMany text) : Spelled text := by
  induction hm with
  | One hone => exact hone.spelled
  | More _ hblank hone ih =>
    exact (ih.append hblank.spelled).append (hone.spelled.cons (by decide))

theorem VersionSpec.spelled (hs : VersionSpec text) : Spelled text := by
  cases hs with
  | Plain hmany => exact hmany.spelled
  | Parenthesized hmany =>
    exact (hmany.spelled.cons (by decide)).append (spelled_nil.cons (by decide))

theorem Spelled.unmarked (hs : Spelled text) : Unmarked text := by
  rintro _ hc rfl
  exact absurd (hs _ hc) (by decide)

theorem isAlphanum_not_isWhitespace (hc : Char.isAlphanum c = true) :
    Text.isWhitespace c = false := by
  simp only [Char.isAlphanum, Char.isAlpha, Char.isUpper, Char.isLower, Char.isDigit,
    Bool.or_eq_true, Bool.and_eq_true, decide_eq_true_eq, ge_iff_le, UInt32.le_iff_toNat_le,
    Char.reduceVal, UInt32.reduceToNat] at hc
  have hn : c.val.toNat = c.toNat := rfl
  simp [Text.isWhitespace]
  omega

theorem isPartChar_blank (hc : isPartChar c = true) (hw : Text.isWhitespace c = true) :
    isBlank c = true := by
  simp only [isPartChar, isNameChar, isSeparator, Bool.or_eq_true, decide_eq_true_eq, mem_cons,
    not_mem_nil, or_false] at hc
  rcases hc with ((hc | hc) | hc) | hc
  · rw [isAlphanum_not_isWhitespace hc] at hw
    cases hw
  · rcases hc with (rfl | rfl) | rfl <;> exact absurd hw (by decide)
  · exact hc
  · rcases hc with rfl | rfl | rfl | rfl | rfl | rfl | rfl | rfl | rfl | rfl | rfl | rfl <;>
      exact absurd hw (by decide)

def opensClause (c : Char) : Bool := c ∈ ['(', '<', '>', '=', '!', '~']

-- A version clause without the white space around it.
structure Solid (text : Text) : Prop where
  opens : ∃ c ∈ text.head?, opensClause c
  closes : ∃ c ∈ text.getLast?, isVersionChar c ∨ c = ')'

theorem isVersionChar_not_isWhitespace (hc : isVersionChar c = true) :
    Text.isWhitespace c = false := by
  by_contra hw
  have hb := isPartChar_blank (isPartChar_of_isVersionChar hc) (Bool.of_not_eq_false hw)
  simp only [isBlank, Bool.or_eq_true, decide_eq_true_eq] at hb
  rcases hb with rfl | rfl <;> exact absurd hc (by decide)

theorem Blank.isWhitespace (hb : Blank text) : ∀ c ∈ text, Text.isWhitespace c := by
  intro c hc
  have hblank := hb c hc
  simp only [isBlank, Bool.or_eq_true, decide_eq_true_eq] at hblank
  rcases hblank with rfl | rfl <;> decide

theorem Blank.append (hl : Blank left) (hr : Blank right) : Blank (left ++ right) := by
  intro c hc
  rcases mem_append.mp hc with hc | hc
  · exact hl c hc
  · exact hr c hc

theorem Solid.closes_not_isWhitespace (hs : Solid text) :
    ∃ c ∈ text.getLast?, Text.isWhitespace c = false := by
  obtain ⟨c, hm, hc⟩ := hs.closes
  rcases hc with hc | rfl
  · exact ⟨c, hm, isVersionChar_not_isWhitespace hc⟩
  · exact ⟨')', hm, by decide⟩

theorem solid_of_compared {op version : Text} (middle : Text) (hop : op ∈ comparisons)
    (hs : version ≠ []) (hv : ∀ c ∈ version, isVersionChar c) :
    Solid (op ++ middle ++ version) := by
  constructor
  · have ho : ∀ op ∈ comparisons, op.head?.any opensClause := by decide +kernel
    obtain ⟨c, hc, ho⟩ := (Option.any_eq_true ..).mp (ho op hop)
    refine ⟨c, ?_, ho⟩
    rw [append_assoc, head?_append, hc]
    rfl
  · refine ⟨version.getLast hs, ?_, .inl (hv _ (getLast_mem hs))⟩
    rw [getLast?_append_of_ne_nil _ hs, getLast?_eq_some_getLast hs]
    rfl

-- A list of comparisons keeps its form without the white space around it.
theorem VersionMany.solid (hm : VersionMany text) : ∃ before core after,
    text = before ++ core ++ after ∧ Blank before ∧ Blank after ∧ VersionMany core ∧
      Solid core := by
  induction hm with
  | One hone =>
    obtain @⟨before, op, middle, version, after, hb, hop, hm, hs, hv, ha⟩ := hone
    refine ⟨before, op ++ middle ++ version, after, by simp, hb, ha, .One ?_,
      solid_of_compared middle hop hs hv⟩
    have ho := VersionOne.Compared blank_nil hop hm hs hv blank_nil
    rwa [nil_append, append_nil] at ho
  | @More _ blank _ _ hblank hone ih =>
    obtain ⟨before, core, after, rfl, hb, ha, hc, hsolid⟩ := ih
    obtain @⟨lead, op, middle, version, trail, hl, hop, hm, hs, hv, ht⟩ := hone
    have ho := VersionOne.Compared hl hop hm hs hv blank_nil
    rw [append_nil] at ho
    have hmany := VersionMany.More hc (ha.append hblank) ho
    refine ⟨before, _, trail, ?_, hb, ht, hmany, ⟨?_, ?_⟩⟩
    · simp
    · obtain ⟨c, hm, hc⟩ := hsolid.opens
      refine ⟨c, ?_, hc⟩
      rw [append_assoc, head?_append, Option.mem_def.mp hm]
      rfl
    · obtain ⟨c, hm, hc⟩ := (solid_of_compared middle hop hs hv).closes
      refine ⟨c, ?_, hc⟩
      have hn : op ++ middle ++ version ≠ [] := by simp [hs]
      rw [show ∀ front : Text, front ++ ',' :: (lead ++ op ++ middle ++ version) =
        front ++ ',' :: lead ++ (op ++ middle ++ version) from fun _ => by simp]
      rw [getLast?_append_of_ne_nil _ hn]
      exact hm

theorem VersionSpec.solid (hs : VersionSpec text) : ∃ before core after,
    text = before ++ core ++ after ∧ Blank before ∧ Blank after ∧ VersionSpec core ∧
      Solid core := by
  cases hs with
  | Plain hmany =>
    obtain ⟨before, core, after, ht, hb, ha, hc, hs⟩ := hmany.solid
    exact ⟨before, core, after, ht, hb, ha, .Plain hc, hs⟩
  | @Parenthesized many hmany =>
    refine ⟨[], _, [], by simp, blank_nil, blank_nil, .Parenthesized hmany,
      ⟨'(', rfl, by decide⟩, ⟨')', getLast?_concat .., .inr rfl⟩⟩

-- The parts of a requirement with all white space where the next part needs it.
structure NormalParts (afterName extras between clause after marker : Text) : Prop where
  blanks : Blank afterName ∧ Blank between ∧ Blank after
  bracketed : extras = [] ∨ Extras extras
  versions : clause = [] ∨ VersionSpec clause ∧ Solid clause
  quoted : marker = [] ∨ QuotedMarker marker
  nameAlone : extras = [] → clause = [] → afterName = []
  oneLeft : extras = [] ∨ clause = [] → between = []

theorem NameRequirement.normalParts (hr : NameRequirement name text) :
    ∃ afterName extras between clause after marker,
      text = name ++ afterName ++ (extras ++ between ++ clause) ++ after ++ marker ∧
        NormalParts afterName extras between clause after marker := by
  obtain ⟨-, afterName, extras, afterExtras, versions, afterVersions, marker, rfl, ha, hb, hc,
    he, hv, hm⟩ := hr
  have hv : ∃ before core after, versions = before ++ core ++ after ∧ Blank before ∧
      Blank after ∧ (core = [] ∧ before = [] ∨ core ≠ [] ∧ VersionSpec core ∧ Solid core) := by
    rcases hv with rfl | hv
    · exact ⟨[], [], [], rfl, blank_nil, blank_nil, .inl ⟨rfl, rfl⟩⟩
    · obtain ⟨before, core, after, ht, hb, ha, hv, hs⟩ := hv.solid
      refine ⟨before, core, after, ht, hb, ha, .inr ⟨?_, hv, hs⟩⟩
      rintro rfl
      obtain ⟨_, hc, -⟩ := hs.opens
      cases hc
  obtain ⟨before, core, after, rfl, hbefore, hafter, hcore⟩ := hv
  rcases he with rfl | he <;> rcases hcore with ⟨rfl, rfl⟩ | ⟨hne, hcore⟩
  · exact ⟨[], [], [], [], afterName ++ afterExtras ++ after ++ afterVersions, marker, by simp,
      ⟨blank_nil, blank_nil, ((ha.append hb).append hafter).append hc⟩, .inl rfl, .inl rfl, hm,
      fun _ _ => rfl, fun _ => rfl⟩
  · exact ⟨afterName ++ afterExtras ++ before, [], [], core, after ++ afterVersions, marker,
      by simp, ⟨(ha.append hb).append hbefore, blank_nil, hafter.append hc⟩, .inl rfl, .inr hcore,
      hm, fun _ hn => absurd hn hne, fun _ => rfl⟩
  · exact ⟨afterName, extras, [], [], afterExtras ++ after ++ afterVersions, marker, by simp,
      ⟨ha, blank_nil, (hb.append hafter).append hc⟩, .inr he, .inl rfl, hm,
      (fun hn => by subst hn; cases he), fun _ => rfl⟩
  · refine ⟨afterName, extras, afterExtras ++ before, core, after ++ afterVersions, marker,
      by simp, ⟨ha, hb.append hbefore, hafter.append hc⟩, .inr he, .inr hcore, hm,
      (fun hn => by subst hn; cases he), ?_⟩
    rintro (rfl | hn)
    · cases he
    · exact absurd hn hne

theorem opensClause_solid (hc : opensClause c = true) :
    isNameChar c = false ∧ Text.isWhitespace c = false := by
  simp only [opensClause, mem_cons, not_mem_nil, or_false, decide_eq_true_eq] at hc
  rcases hc with rfl | rfl | rfl | rfl | rfl | rfl <;> decide

theorem isBlank_not_isNameChar (hc : isBlank c = true) : isNameChar c = false := by
  simp only [isBlank, Bool.or_eq_true, decide_eq_true_eq] at hc
  rcases hc with rfl | rfl <;> decide

section

variable (hp : NormalParts afterName extras between clause after marker)
include hp

theorem NormalParts.clause_head : ∀ c ∈ clause.head?, opensClause c := by
  intro c hc
  rcases hp.versions with rfl | ⟨-, hs⟩
  · cases hc
  · obtain ⟨_, ho, hopens⟩ := hs.opens
    cases ho.symm.trans hc
    exact hopens

theorem NormalParts.tail_head : ∀ c ∈ (extras ++ between ++ clause).head?,
    isNameChar c = false ∧ Text.isWhitespace c = false := by
  intro c hc
  rcases hp.bracketed with rfl | he
  · rw [hp.oneLeft (.inl rfl)] at hc
    exact opensClause_solid (hp.clause_head c hc)
  · cases he
    cases hc
    decide

theorem NormalParts.closed (hn : isIdentifier name = true) :
    ∃ c ∈ (name ++ afterName ++ (extras ++ between ++ clause)).getLast?,
      Text.isWhitespace c = false := by
  rcases hp.versions with rfl | ⟨-, hs⟩
  · rw [hp.oneLeft (.inr rfl), append_nil, append_nil]
    rcases hp.bracketed with rfl | he
    · rw [hp.nameAlone rfl rfl, append_nil, append_nil]
      simp only [isIdentifier, Bool.and_eq_true] at hn
      obtain ⟨c, hc, ha⟩ := (Option.any_eq_true ..).mp hn.1.2
      exact ⟨c, hc, isAlphanum_not_isWhitespace ha⟩
    · cases he
      refine ⟨']', ?_, by decide⟩
      rw [← append_assoc, getLast?_concat]
      rfl
  · obtain ⟨c, hc, hw⟩ := hs.closes_not_isWhitespace
    refine ⟨c, ?_, hw⟩
    rw [← append_assoc, getLast?_append, Option.mem_def.mp hc]
    rfl

end

theorem MarkerVar.two_le (hv : MarkerVar text) : 2 ≤ text.length := by
  cases hv with
  | Variable _ hname =>
    have hl : ∀ name ∈ environmentVariables, 2 ≤ name.length := by decide +kernel
    have := hl _ hname
    rw [length_append]
    omega
  | _ => simp; omega

theorem MarkerOp.one_le (hop : MarkerOp text) : 1 ≤ text.length := by
  cases hop with
  | Comparison _ hop =>
    have hl : ∀ op ∈ comparisons, 1 ≤ op.length := by decide +kernel
    have := hl _ hop
    rw [length_append]
    omega
  | In => simp
  | NotIn => simp; omega

theorem MarkerAt.five_le (hm : MarkerAt level text) : 5 ≤ text.length := by
  induction hm with
  | Compare hleft hop hright =>
    have := hleft.two_le
    have := hop.one_le
    have := hright.two_le
    simp only [length_append]
    omega
  | Parenthesized =>
    simp only [length_append, length_cons]
    omega
  | Single _ ih | Joined _ ih => exact ih
  | And | Or =>
    simp only [length_append]
    omega

end Nteract.Lib.Requirement
