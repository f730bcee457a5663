import Nteract.Lib.Decimal
import Nteract.Lib.Table
import Nteract.Lib.Text

namespace Nteract.MarkdownAnchors

open Lib Lib.Decimal List

inductive NodeKind
  | Heading (depth : Nat)
  | Other

inductive ProjectedNode
  | Node (kind : NodeKind) (id : String) (span : Nat × Nat) (text : Text)
      (children : List ProjectedNode)

structure MarkdownAnchor where
  id : Text
  slug : Text
  title : Text
  level : Nat
  blockId : String
  span : Nat × Nat

structure FinalizationContext where
  anchors : List MarkdownAnchor
  slugCounts : Table Text Nat

structure Heading where
  title : Text
  level : Nat
  blockId : String
  span : Nat × Nat

def MarkdownAnchor.heading (anchor : MarkdownAnchor) : Heading :=
  ⟨anchor.title, anchor.level, anchor.blockId, anchor.span⟩

section Finalization

-- char::to_lowercase
variable (toLowercase : Char → Text)

def pushCharacter (state : Text × Bool) (character : Char) : Text × Bool :=
  if character.isAlphanum then (state.1 ++ [character], false)
  else if (Text.isWhitespace character || character = '-') && !state.2 && !state.1.isEmpty then
    (state.1 ++ ['-'], true)
  else state

def slugify (value : Text) : Text :=
  let slug := ((value.flatMap toLowercase).foldl pushCharacter ([], false)).1.rdropWhile (· = '-')
  if slug = [] then "section".toList else slug

def uniqueSlug (slugCounts : Table Text Nat) (title : Text) : Text × Table Text Nat :=
  let slug := slugify toLowercase title
  let count := (slugCounts.find slug).getD 0 + 1
  (if count = 1 then slug else slug ++ '-' :: natText count, slugCounts.set slug count)

def addAnchor (context : FinalizationContext) (heading : Heading) : FinalizationContext :=
  let (slug, slugCounts) := uniqueSlug toLowercase context.slugCounts heading.title
  ⟨context.anchors ++ [⟨"anchor:".toList ++ slug, slug, heading.title, heading.level,
    heading.blockId, heading.span⟩], slugCounts⟩

mutual

def finalizeNode (context : FinalizationContext) : ProjectedNode → FinalizationContext
  | .Node (.Heading depth) id span text children =>
    finalizeNodes (addAnchor toLowercase context ⟨text, depth, id, span⟩) children
  | .Node .Other _ _ _ children => finalizeNodes context children

def finalizeNodes (context : FinalizationContext) : List ProjectedNode → FinalizationContext
  | [] => context
  | child :: children => finalizeNodes (finalizeNode context child) children

end

def assemblePlan (root : ProjectedNode) : List MarkdownAnchor :=
  (finalizeNode toLowercase ⟨[], .empty⟩ root).anchors

end Finalization

mutual

def headings : ProjectedNode → List Heading
  | .Node (.Heading depth) id span text children => ⟨text, depth, id, span⟩ :: headingsAll children
  | .Node .Other _ _ _ children => headingsAll children

def headingsAll : List ProjectedNode → List Heading
  | [] => []
  | child :: children => headings child ++ headingsAll children

end

-- The slug of the heading that is the `number`th with it.
def numbered (slug : Text) (number : Nat) : Text :=
  if number = 1 then slug else slug ++ '-' :: natText number

def numberedAll (earlier : List Text) : List Text → List Text
  | [] => []
  | slug :: later => numbered slug (earlier.count slug + 1) :: numberedAll (slug :: earlier) later

variable {toLowercase : Char → Text}

mutual

theorem finalizeNode_eq (context : FinalizationContext) : ∀ node,
    finalizeNode toLowercase context node = (headings node).foldl (addAnchor toLowercase) context
  | .Node (.Heading _) _ _ _ children => finalizeNodes_eq _ children
  | .Node .Other _ _ _ children => finalizeNodes_eq context children

theorem finalizeNodes_eq (context : FinalizationContext) : ∀ nodes,
    finalizeNodes toLowercase context nodes =
      (headingsAll nodes).foldl (addAnchor toLowercase) context
  | [] => rfl
  | child :: children => by
    rw [finalizeNodes, finalizeNode_eq context child, finalizeNodes_eq _ children, headingsAll,
      foldl_append]

end

theorem foldl_addAnchor (earlier : List Text) (later : List Heading)
    (hc : ∀ slug, (context.slugCounts.find slug).getD 0 = earlier.count slug) :
    let anchors := (later.foldl (addAnchor toLowercase) context).anchors
    anchors.map MarkdownAnchor.heading = context.anchors.map MarkdownAnchor.heading ++ later ∧
      anchors.map MarkdownAnchor.slug = context.anchors.map MarkdownAnchor.slug ++
        numberedAll earlier (later.map fun heading => slugify toLowercase heading.title) := by
  induction later generalizing context earlier with
  | nil => simp [numberedAll]
  | cons heading later ih =>
    obtain ⟨hh, hs⟩ := @ih (addAnchor toLowercase context heading)
      (slugify toLowercase heading.title :: earlier) fun slug => by
        simp only [addAnchor, uniqueSlug, Table.find_set]
        by_cases he : slug = slugify toLowercase heading.title
        · simp [he, hc]
        · simp [he, hc, Ne.symm he]
    simp only [foldl_cons, hh, hs]
    simp [addAnchor, uniqueSlug, MarkdownAnchor.heading, numberedAll, numbered, hc]

theorem numberedAll_new {slug : Text} (he : slug ∉ earlier) (hb : slug ∉ before)
    (after : List Text) :
    (numberedAll earlier (before ++ slug :: after))[before.length]? = some slug := by
  induction before generalizing earlier with
  | nil => simp [numberedAll, numbered, count_eq_zero.mpr he]
  | cons other before ih =>
    rw [mem_cons, not_or] at hb
    exact ih (fun hm => (mem_cons.mp hm).elim hb.1 he) hb.2

theorem rtakeWhile_number (slug : Text) (number : Nat) :
    (slug ++ '-' :: natText number).rtakeWhile (· ≠ '-') = natText number := by
  have hd : ∀ c ∈ natText number, c ≠ '-' := by
    intro c hm
    obtain ⟨item, hi, rfl⟩ := mem_map.mp hm
    have := digits_lt hi
    interval_cases item <;> decide
  rw [append_cons, List.rtakeWhile, reverse_append, takeWhile_append_of_pos (by simpa using hd)]
  simp

theorem number_inj {first second : Text}
    (he : first ++ '-' :: natText number = second ++ '-' :: natText other) :
    first = second ∧ number = other := by
  have ht := congrArg (List.rtakeWhile (· ≠ '-')) he
  rw [rtakeWhile_number, rtakeWhile_number] at ht
  rw [ht] at he
  have hd := congrArg JsonText.natOfDigits (Prod.mk.inj (Option.some.inj
    ((parseInteger_natText number).symm.trans (ht ▸ parseInteger_natText other)))).1
  rw [natOfDigits_digits, natOfDigits_digits] at hd
  exact ⟨append_cancel_right he, hd⟩

-- No slug is another one with a number that was given out for it.
def Unnumbered (slugs : List Text) : Prop :=
  ∀ first ∈ slugs, ∀ second ∈ slugs, ∀ number ≥ 2, number ≤ slugs.count first →
    second ≠ first ++ '-' :: natText number

-- The numbers that are given out for each slug after those of `earlier`.
def given (earlier slugs : List Text) : Set (Text × Nat) :=
  {pair | earlier.count pair.1 < pair.2 ∧ pair.2 ≤ earlier.count pair.1 + slugs.count pair.1}

theorem given_cons (earlier : List Text) (slug : Text) (later : List Text) :
    given earlier (slug :: later) =
      insert (slug, earlier.count slug + 1) (given (slug :: earlier) later) := by
  ext ⟨other, number⟩
  by_cases he : other = slug
  · subst he
    simp only [given, Set.mem_ofPred_eq, Set.mem_insert_iff, Prod.mk.injEq, true_and,
      count_cons_self]
    omega
  · simp [given, he, Ne.symm he]

theorem nodup_numberedAll (earlier slugs : List Text) :
    (∀ slug, slug ∈ numberedAll earlier slugs ↔
      ∃ pair ∈ given earlier slugs, numbered pair.1 pair.2 = slug) ∧
    ((numberedAll earlier slugs).Nodup ↔
      Set.InjOn (fun pair => numbered pair.1 pair.2) (given earlier slugs)) := by
  induction slugs generalizing earlier with
  | nil =>
    have hg : given earlier [] = ∅ := by
      ext ⟨slug, number⟩
      simp [given]
    simp [hg, numberedAll]
  | cons slug later ih =>
    obtain ⟨hm, hn⟩ := ih (slug :: earlier)
    have hnew : (slug, earlier.count slug + 1) ∉ given (slug :: earlier) later := by
      simp [given]
    rw [numberedAll, nodup_cons, given_cons, Set.injOn_insert hnew, hn, hm]
    refine ⟨fun other => ?_, and_comm⟩
    rw [mem_cons, hm, eq_comm]
    simp

theorem nodup_iff_unnumbered (slugs : List Text) :
    (numberedAll [] slugs).Nodup ↔ Unnumbered slugs := by
  rw [(nodup_numberedAll [] slugs).2]
  constructor
  · intro hi first hf second hs number hn hc he
    have hpair := @hi (second, 1) (by simpa [given] using hs) (first, number)
      ⟨by simp; omega, by simpa using hc⟩ (by simp [numbered, he]; omega)
    simp at hpair
    omega
  · rintro hu ⟨first, number⟩ ⟨hf, hc⟩ ⟨second, other⟩ ⟨hs, hd⟩ he
    simp only [count_nil, zero_add, numbered] at *
    have hfirst : first ∈ slugs := one_le_count_iff.mp (by omega)
    have hsecond : second ∈ slugs := one_le_count_iff.mp (by omega)
    split at he <;> split at he
    · simp_all
    · exact absurd he (hu second hsecond first hfirst other (by omega) hd)
    · exact absurd he.symm (hu first hfirst second hsecond number (by omega) hc)
    · obtain ⟨rfl, rfl⟩ := number_inj he
      rfl

theorem heading_anchors_unique (toLowercase : Char → Text) (root : ProjectedNode) :
    (assemblePlan toLowercase root).map MarkdownAnchor.heading = headings root ∧
    (∀ before heading after, headings root = before ++ heading :: after →
      (∀ earlier ∈ before, slugify toLowercase heading.title ≠ slugify toLowercase earlier.title) →
      ((assemblePlan toLowercase root).map MarkdownAnchor.slug)[before.length]? =
        some (slugify toLowercase heading.title)) ∧
    (((assemblePlan toLowercase root).map MarkdownAnchor.slug).Nodup ↔
      Unnumbered ((headings root).map fun heading => slugify toLowercase heading.title)) := by
  obtain ⟨hh, hs⟩ := @foldl_addAnchor toLowercase ⟨[], .empty⟩ [] (headings root) fun _ => rfl
  rw [← finalizeNode_eq] at hh hs
  unfold assemblePlan
  refine ⟨hh, fun before heading after hsplit hb => ?_, hs ▸ nodup_iff_unnumbered _⟩
  have hn := @numberedAll_new [] (before.map fun earlier => slugify toLowercase earlier.title)
    (slugify toLowercase heading.title) not_mem_nil (by simpa [eq_comm] using hb)
    (after.map fun later => slugify toLowercase later.title)
  rw [hs, hsplit]
  simpa using hn

def titled (titles : List String) : ProjectedNode :=
  .Node .Other "root" (0, 0) [] (titles.map fun title =>
    .Node (.Heading 1) title (0, 0) title.toList [])

theorem repeated_title_numbered :
    ((assemblePlan ([·.toLower]) (titled ["A", "A"])).map MarkdownAnchor.slug).Nodup := by
  have hs : (headings (titled ["A", "A"])).map
      (fun heading => slugify ([·.toLower]) heading.title) = ["a".toList, "a".toList] := by
    decide +kernel
  refine (heading_anchors_unique _ _).2.2.mpr ?_
  rw [hs]
  simp [Unnumbered]

-- The third title spells the slug that the second one was given.
theorem spelled_number_repeated :
    (assemblePlan ([·.toLower]) (titled ["a", "a", "a 2"])).map MarkdownAnchor.slug =
      ["a".toList, "a-2".toList, "a-2".toList] := by
  decide +kernel

end Nteract.MarkdownAnchors
