import Palworld.Changelog.Document

/-!
# What the parser returns for a document

A document is releases with the unreleased changes among them. The outline of the parser is its state
without the raw lines. The header of the unreleased changes files the release before it and does not
clear it, so that release is filed again.
-/

open Lib Lib.Re

namespace Palworld.Changelog

/-- Categories with their items, no category twice. -/
structure Changes where
  categories : List (CategoryName × List ItemText)
  distinct : (categories.map fun c => c.1.text).Nodup

structure Release where
  version : Version
  date : Option Date
  changes : Changes

structure Document where
  before : List Release
  unreleased : Changes
  after : List Release

def Changes.tokens (ch : Changes) : List Token := ch.categories.flatMap fun c => .category c.1 :: c.2.map .item

def Release.tokens (r : Release) : List Token := .release r.version r.date :: r.changes.tokens

def Document.tokens (doc : Document) : List Token :=
  doc.before.flatMap Release.tokens ++ .unreleased :: (doc.unreleased.tokens ++ doc.after.flatMap Release.tokens)

/-- A release as a reader sees it, without its raw body. -/
structure Entry where
  version : Text
  date : Option Text
  categories : List ChangelogCategoryItem
  deriving DecidableEq

def ChangelogRelease.entry (r : ChangelogRelease) : Entry := ⟨r.version, r.date, r.categories⟩

def Changes.items (ch : Changes) : List ChangelogCategoryItem := ch.categories.map fun c => ⟨c.1.text, c.2.map (·.text)⟩

def Release.entry (r : Release) : Entry := ⟨r.version.text, r.date.map Date.text, r.changes.items⟩

/-! ## The outline -/

structure Outline where
  releases : List Entry
  unreleased : Dict Text (List Text)
  active_section : Section
  current_cat : Option Text
  version : Text
  date : Option Text
  categories : Dict Text (List Text)

def ParserState.outline (st : ParserState) : Outline where
  releases := st.releases.map ChangelogRelease.entry
  unreleased := st.unreleased_cats
  active_section := st.active_section
  current_cat := st.current_cat
  version := st.state.version
  date := st.state.date
  categories := st.state.categories

namespace Outline

/-- The release that is filed next. -/
def pending (o : Outline) : List Entry := if o.version = [] then [] else [⟨o.version, o.date, categoryItems o.categories⟩]

def flushed (o : Outline) : List Entry := o.releases ++ o.pending

def step (o : Outline) : Token → Outline
  | .unreleased => { o with releases := o.flushed, active_section := .unreleased, current_cat := none }
  | .release version date =>
    { o with releases := o.flushed, active_section := .release, current_cat := none, version := version.text,
             date := date.map Date.text, categories := Dict.empty }
  | .category name =>
    match o.active_section with
    | .preamble => { o with current_cat := some name.text }
    | .unreleased => { o with current_cat := some name.text, unreleased := setdefault o.unreleased name.text }
    | .release => { o with current_cat := some name.text, categories := setdefault o.categories name.text }
  | .item text =>
    match o.active_section with
    | .preamble => o
    | .unreleased => { o with unreleased := appendItem o.unreleased (targetCat o.current_cat .unreleased) text.text }
    | .release => { o with categories := appendItem o.categories (targetCat o.current_cat .release) text.text }

end Outline

section

variable {st : ParserState} {o : Outline} {line line_str : Text} {token : Token} {tokens : List Token} {lines : List Text}

theorem flushActiveRelease_entries : (flushActiveRelease st.releases st.state).map ChangelogRelease.entry = st.outline.flushed := by
  unfold flushActiveRelease ReleaseState.buildRelease Outline.flushed Outline.pending ParserState.outline
  rw [List.map_append]
  congr 1
  dsimp only
  split <;> rfl

theorem outline_keepRaw : (st.keepRaw line_str).outline = st.outline := by
  unfold ParserState.keepRaw
  split <;> rfl

/-- A line that describes a token makes the step of the token. -/
theorem outline_parseLine (h : Describes token (rstripNewlines line)) : (parseLine st line).outline = st.outline.step token := by
  cases token with
  | unreleased =>
    rw [parseLine_unreleased h]
    unfold Outline.step
    dsimp only
    rw [← flushActiveRelease_entries]
    rfl
  | release version date =>
    rw [parseLine_release h]
    unfold Outline.step
    dsimp only
    rw [← flushActiveRelease_entries]
    rfl
  | category name =>
    rw [parseLine_category h]
    obtain ⟨releases, unreleased_cats, active_section, current_cat, state⟩ := st
    cases active_section <;> rfl
  | item text =>
    rw [parseLine_item h]
    obtain ⟨releases, unreleased_cats, active_section, current_cat, state⟩ := st
    cases active_section <;> rfl

theorem outline_foldl (st : ParserState) (h : Renders tokens lines) : (lines.foldl parseLine st).outline = tokens.foldl Outline.step st.outline := by
  induction h generalizing st with
  | nil => rfl
  | token hline _ ih => rw [List.foldl_cons, List.foldl_cons, ih, outline_parseLine hline]
  | prose hline _ ih => rw [List.foldl_cons, ih, parseLine_prose hline, outline_keepRaw]

end

/-! ## The categories of a section -/

section

variable {cats : Dict Text (List Text)} {name : Text} {done : List Text} {ch : Changes} {entries : List (Text × List Text)}

theorem setEntry_append {v w : List Text} (hnew : name ∉ entries.map Prod.fst) :
    setEntry name w (entries ++ [(name, v)]) = entries ++ [(name, w)] := by
  induction entries with
  | nil => simp [setEntry]
  | cons entry entries ih =>
    rw [List.map_cons, List.mem_cons, not_or] at hnew
    rw [List.cons_append, setEntry, if_neg (Ne.symm hnew.1), ih hnew.2, List.cons_append]

theorem lookup_append_last {v : List Text} (hnew : name ∉ entries.map Prod.fst) : lookup name (entries ++ [(name, v)]) = some v := by
  induction entries with
  | nil => simp [lookup]
  | cons entry entries ih =>
    rw [List.map_cons, List.mem_cons, not_or] at hnew
    rw [List.cons_append, lookup, if_neg (Ne.symm hnew.1), ih hnew.2]

theorem setEntry_new {v : List Text} (hnew : name ∉ entries.map Prod.fst) : setEntry name v entries = entries ++ [(name, v)] := by
  induction entries with
  | nil => rfl
  | cons entry entries ih =>
    rw [List.map_cons, List.mem_cons, not_or] at hnew
    rw [setEntry, if_neg (Ne.symm hnew.1), ih hnew.2, List.cons_append]

theorem entries_setdefault (hnew : name ∉ cats.entries.map Prod.fst) : (setdefault cats name).entries = cats.entries ++ [(name, [])] := by
  have hnone : cats.get? name = none := lookup_eq_none.mpr hnew
  unfold setdefault
  rw [hnone]
  exact setEntry_new hnew

/-- The items go to the end of the last category. -/
theorem entries_appendItems (items : List Text) (hnew : name ∉ entries.map Prod.fst) (h : cats.entries = entries ++ [(name, done)]) :
    (items.foldl (fun cats item => appendItem cats name item) cats).entries = entries ++ [(name, done ++ items)] := by
  induction items generalizing cats done with
  | nil => rw [List.foldl_nil, h, List.append_nil]
  | cons item items ih =>
    have hget : cats.get? name = some done := by
      unfold Dict.get?
      rw [h, lookup_append_last hnew]
    have hset : (appendItem cats name item).entries = entries ++ [(name, done ++ [item])] := by
      unfold appendItem
      rw [hget]
      change setEntry name (done ++ [item]) cats.entries = entries ++ [(name, done ++ [item])]
      rw [h, setEntry_append hnew]
    rw [List.foldl_cons, ih hset, List.append_assoc, List.singleton_append]

/-- Filing changes into a dictionary of categories. -/
def Changes.fill (cats : Dict Text (List Text)) (ch : List (CategoryName × List ItemText)) : Dict Text (List Text) :=
  ch.foldl (fun cats c => (c.2.map (·.text)).foldl (fun cats item => appendItem cats c.1.text item) (setdefault cats c.1.text)) cats

theorem entries_fill {ch : List (CategoryName × List ItemText)} (hdistinct : (ch.map fun c => c.1.text).Nodup)
    (hnew : ∀ c ∈ ch, c.1.text ∉ cats.entries.map Prod.fst) :
    (Changes.fill cats ch).entries = cats.entries ++ ch.map fun c => (c.1.text, c.2.map (·.text)) := by
  induction ch generalizing cats with
  | nil => exact (List.append_nil _).symm
  | cons c ch ih =>
    rw [List.map_cons, List.nodup_cons] at hdistinct
    have hentries := entries_appendItems (c.2.map (·.text)) (hnew c List.mem_cons_self)
      (entries_setdefault (hnew c List.mem_cons_self))
    unfold Changes.fill at ih ⊢
    rw [List.foldl_cons, ih hdistinct.2, hentries, List.map_cons, List.append_assoc, List.nil_append, List.singleton_append]
    intro d hd
    rw [hentries, List.map_append, List.mem_append, not_or]
    refine ⟨hnew d (List.mem_cons_of_mem c hd), ?_⟩
    rw [List.map_singleton, List.mem_singleton]
    intro heq
    change d.1.text = c.1.text at heq
    apply hdistinct.1
    rw [← heq]
    exact List.mem_map_of_mem hd

theorem categoryItems_fill : categoryItems (Changes.fill Dict.empty ch.categories) = ch.items := by
  unfold categoryItems Changes.items
  rw [entries_fill ch.distinct fun _ _ => List.not_mem_nil]
  exact List.map_map

end

/-! ## A run over the tokens -/

section

variable {o : Outline}

/-- Where the section keeps its categories in a dictionary, its lines fill that dictionary. -/
theorem foldl_categories (put : Dict Text (List Text) → Option Text → Outline)
    (hcategory : ∀ cats cat name, (put cats cat).step (.category name) = put (setdefault cats name.text) (some name.text))
    (hitem : ∀ cats (name : CategoryName) text,
      (put cats (some name.text)).step (.item text) = put (appendItem cats name.text text.text) (some name.text))
    (categories : List (CategoryName × List ItemText)) (cats : Dict Text (List Text)) (cat : Option Text) : ∃ cat',
      (categories.flatMap fun c => Token.category c.1 :: c.2.map Token.item).foldl Outline.step (put cats cat) =
        put (Changes.fill cats categories) cat' := by
  have hitems : ∀ (name : CategoryName) (items : List ItemText) cats, (items.map Token.item).foldl Outline.step (put cats (some name.text)) =
      put ((items.map (·.text)).foldl (fun cats item => appendItem cats name.text item) cats) (some name.text) := by
    intro name items
    induction items with
    | nil => exact fun _ => rfl
    | cons item items ih =>
      intro cats
      rw [List.map_cons, List.foldl_cons, hitem, ih]
      rfl
  induction categories generalizing cats cat with
  | nil => exact ⟨cat, rfl⟩
  | cons c categories ih =>
    obtain ⟨cat', hrest⟩ := ih ((c.2.map (·.text)).foldl (fun cats item => appendItem cats c.1.text item) (setdefault cats c.1.text))
      (some c.1.text)
    refine ⟨cat', ?_⟩
    rw [List.flatMap_cons, List.foldl_append, List.foldl_cons, hcategory, hitems, hrest]
    rfl

theorem targetCat_name (name : CategoryName) (active_section : Section) : targetCat (some name.text) active_section = name.text := by
  unfold targetCat
  exact if_neg name.ne

/-- A release is filed behind those before it, once the next header comes or the end. -/
theorem foldl_release (r : Release) : ∃ o', r.tokens.foldl Outline.step o = o' ∧ o'.releases = o.flushed ∧ o'.pending = [r.entry] ∧ o'.unreleased = o.unreleased := by
  obtain ⟨cat', hrun⟩ := foldl_categories
    (fun cats cat => { o with
      releases := o.flushed, active_section := .release, current_cat := cat, version := r.version.text, date := r.date.map Date.text,
      categories := cats })
    (fun _ _ _ => rfl) (fun cats name text => by
      unfold Outline.step
      dsimp only
      rw [targetCat_name]) r.changes.categories Dict.empty none
  refine ⟨_, hrun, rfl, ?_, rfl⟩
  have hne : r.version.text ≠ [] := fun h => r.version.major.ne (List.append_eq_nil_iff.mp h).1
  unfold Outline.pending Release.entry
  dsimp only
  rw [if_neg hne, categoryItems_fill]

theorem foldl_releases (rs : List Release) : ∃ o', (rs.flatMap Release.tokens).foldl Outline.step o = o' ∧ o'.flushed = o.flushed ++ rs.map Release.entry ∧
    o'.pending = (rs.getLast?.map fun r => [r.entry]).getD o.pending ∧ o'.unreleased = o.unreleased := by
  induction rs generalizing o with
  | nil => exact ⟨o, rfl, (List.append_nil _).symm, rfl, rfl⟩
  | cons r rs ih =>
    obtain ⟨o₁, hrun₁, hreleases, hpending₁, hunreleased₁⟩ := foldl_release (o := o) r
    obtain ⟨o₂, hrun₂, hflushed, hpending₂, hunreleased₂⟩ := ih (o := o₁)
    refine ⟨o₂, ?_, ?_, ?_, hunreleased₂.trans hunreleased₁⟩
    · rw [List.flatMap_cons, List.foldl_append, hrun₁, hrun₂]
    · rw [hflushed]
      unfold Outline.flushed
      rw [hreleases, hpending₁, List.append_assoc, List.map_cons, List.singleton_append]
      rfl
    · rw [hpending₂, hpending₁, List.getLast?_cons]
      cases rs.getLast? <;> rfl

theorem foldl_unreleased (ch : Changes) : ∃ o', (.unreleased :: ch.tokens).foldl Outline.step o = o' ∧ o'.releases = o.flushed ∧ o'.pending = o.pending ∧
    o'.unreleased = Changes.fill o.unreleased ch.categories := by
  obtain ⟨cat', hrun⟩ := foldl_categories
    (fun cats cat => { o with releases := o.flushed, active_section := .unreleased, current_cat := cat, unreleased := cats })
    (fun _ _ _ => rfl) (fun cats name text => by
      unfold Outline.step
      dsimp only
      rw [targetCat_name]) ch.categories o.unreleased none
  exact ⟨_, hrun, rfl, rfl, rfl⟩

end

/-- What is returned: the release before the unreleased changes stands twice. -/
theorem parseLines_document {doc : Document} {lines : List Text} (h : Renders doc.tokens lines) :
    (parseLines lines).1.map ChangelogRelease.entry =
        doc.before.map Release.entry ++ (doc.before.getLast?.map Release.entry).toList ++ doc.after.map Release.entry ∧
      (parseLines lines).2 = doc.unreleased.items := by
  have hrun := outline_foldl {} h
  obtain ⟨o₁, hrun₁, hflushed₁, hpending₁, hunreleased₁⟩ := foldl_releases (o := ParserState.outline {}) doc.before
  obtain ⟨o₂, hrun₂, hreleases₂, hpending₂, hunreleased₂⟩ := foldl_unreleased (o := o₁) doc.unreleased
  obtain ⟨o₃, hrun₃, hflushed₃, -, hunreleased₃⟩ := foldl_releases (o := o₂) doc.after
  have hstart : (ParserState.outline {}).flushed = [] := rfl
  have hfresh : (ParserState.outline {}).pending = [] := rfl
  have hempty : (ParserState.outline {}).unreleased = Dict.empty := rfl
  have htokens : doc.tokens.foldl Outline.step (ParserState.outline {}) = o₃ := by
    unfold Document.tokens
    rw [List.foldl_append, hrun₁, ← List.cons_append, List.foldl_append, hrun₂, hrun₃]
  rw [htokens] at hrun
  have hpending : o₂.pending = (doc.before.getLast?.map Release.entry).toList := by
    rw [hpending₂, hpending₁, hfresh]
    cases doc.before.getLast? <;> rfl
  unfold parseLines
  dsimp only
  constructor
  · rw [flushActiveRelease_entries, hrun, hflushed₃]
    unfold Outline.flushed at hflushed₁ ⊢
    rw [hreleases₂, hpending]
    unfold Outline.flushed
    rw [hflushed₁]
    rfl
  · have hcats : (lines.foldl parseLine {}).outline.unreleased = Changes.fill Dict.empty doc.unreleased.categories := by
      rw [hrun, hunreleased₃, hunreleased₂, hunreleased₁, hempty]
    exact (congrArg categoryItems hcats).trans categoryItems_fill

/-- The changelog comes back as it was written, each release once, where no release stands before the unreleased changes. -/
theorem parseLines_lossless_iff (doc : Document) (lines : List Text) (h : Renders doc.tokens lines) :
    ((parseLines lines).1.map ChangelogRelease.entry = (doc.before ++ doc.after).map Release.entry ∧
      (parseLines lines).2 = doc.unreleased.items) ↔ doc.before = [] := by
  obtain ⟨hreleases, hunreleased⟩ := parseLines_document h
  rw [hreleases, and_iff_left hunreleased, List.map_append]
  constructor
  · intro heq
    have hlen := congrArg List.length heq
    simp only [List.length_append, List.length_map] at hlen
    cases hlast : doc.before.getLast? with
    | none => exact List.getLast?_eq_none_iff.mp hlast
    | some r =>
      rw [hlast] at hlen
      simp only [Option.map_some, Option.toList_some, List.length_singleton] at hlen
      omega
  · intro hnil
    rw [hnil]
    rfl

/-! ## A document -/

section

def runOf {p : Char → Bool} (t : Text) (h : t ≠ [] ∧ t.all p = true) : Run p := ⟨t, h.1, List.all_eq_true.mp h.2⟩

def digitsOf (t : Text) (h : t.all Char.isDigit = true) : Digits t.length := ⟨t, rfl, List.all_eq_true.mp h⟩

def oneBlank : Run isBlank := runOf [' '] (by decide)

def added : CategoryName := ⟨runOf (lit "Added") (by decide +kernel), by decide +kernel⟩

def maps : ItemText := ⟨runOf (lit "Maps") (by decide +kernel), by decide +kernel⟩

def firstRelease : Release where
  version := ⟨runOf ['1'] (by decide), runOf ['0'] (by decide), none, none⟩
  date := some ⟨digitsOf ['2', '0', '2', '4'] (by decide), digitsOf ['0', '1'] (by decide), digitsOf ['0', '2'] (by decide)⟩
  changes := ⟨[(added, [maps])], List.nodup_singleton _⟩

def noChanges : Changes := ⟨[], List.nodup_nil⟩

def releaseLines : List Text := [lit "## [1.0] - 2024-01-02", lit "### Added", lit "- Maps"]

def unreleasedLine : Text := lit "## [Unreleased]"

theorem renders_firstRelease {tokens : List Token} {lines : List Text} (h : Renders tokens lines) :
    Renders (firstRelease.tokens ++ tokens) (releaseLines ++ lines) := by
  have hheader : rstripNewlines (lit "## [1.0] - 2024-01-02") = lit "##" ++ (oneBlank.text ++ (['['] ++ ([] ++ (firstRelease.version.text ++
      ([']'] ++ (([' '] ++ '-' :: ([' '] ++ lit "2024-01-02")) ++ [])))))) := by decide +kernel
  have hcategory : rstripNewlines (lit "### Added") = lit "###" ++ (oneBlank.text ++ (lit "Added" ++ [])) := by decide +kernel
  have hitem : rstripNewlines (lit "- Maps") = [] ++ '-' :: (oneBlank.text ++ (lit "Maps" ++ [])) := by decide +kernel
  refine Renders.token ?_ (Renders.token ?_ (Renders.token ?_ h))
  · rw [hheader]
    exact Describes.release firstRelease.version oneBlank (Or.inr rfl) (Or.inl rfl) (Or.inr rfl)
      (DatePart.some _ oneBlank.all oneBlank.all nofun) nofun
  · rw [hcategory]
    exact Describes.category added oneBlank nofun
  · rw [hitem]
    exact Describes.item maps oneBlank nofun (Or.inr rfl) nofun

theorem renders_unreleased {tokens : List Token} {lines : List Text} (h : Renders tokens lines) :
    Renders (.unreleased :: tokens) (unreleasedLine :: lines) := by
  have hline : rstripNewlines unreleasedLine = lit "##" ++ (oneBlank.text ++ (['['] ++ (lit "Unreleased" ++ ([']'] ++ [])))) := by decide +kernel
  refine Renders.token ?_ h
  rw [hline]
  exact Describes.unreleased oneBlank (Or.inr rfl) (by decide +kernel) (Or.inr rfl) nofun

/-- With the unreleased changes on top, the release is there once. -/
theorem parseLines_lossless_top :
    (parseLines (unreleasedLine :: releaseLines)).1.map ChangelogRelease.entry = [firstRelease.entry] ∧
      (parseLines (unreleasedLine :: releaseLines)).2 = [] :=
  (parseLines_lossless_iff ⟨[], noChanges, [firstRelease]⟩ (unreleasedLine :: releaseLines)
    (renders_unreleased (renders_firstRelease Renders.nil))).mpr rfl

/-- With the unreleased changes at the end, it is there twice. -/
theorem release_filed_twice :
    Renders (Document.mk [firstRelease] noChanges []).tokens (releaseLines ++ [unreleasedLine]) ∧
      (parseLines (releaseLines ++ [unreleasedLine])).1.map ChangelogRelease.entry = [firstRelease.entry, firstRelease.entry] :=
  ⟨renders_firstRelease (renders_unreleased Renders.nil), by decide +kernel⟩

end

end Palworld.Changelog
