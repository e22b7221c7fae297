import Palworld.Lib.PercentEncoding

/-!
# Links to the issue composer

A link names a template of the repository and may fill in a title and a body. Security reports go to the advisory form with
nothing filled in.
-/

open Lib

namespace Palworld.Feedback

inductive IssueCategory
  | bugReport
  | featureRequest
  | documentationUpdate
  | securityReport
  deriving DecidableEq

def IssueCategory.templateFilename : IssueCategory → Text
  | .bugReport => lit "bug_report.md"
  | .featureRequest => lit "feature_request.md"
  | .documentationUpdate => lit "documentation_update.md"
  | .securityReport => lit "security_report.md"

/-- `t.rstrip("/")`. -/
def rstripSlashes (t : Text) : Text := (t.reverse.dropWhile (· = '/')).reverse

/-- A field that is left out when it is empty or `None`. -/
def unlessEmpty (key : Text) (value : Option Text) : List (Text × Text) :=
  match value with
  | none | some [] => []
  | some value => [(key, value)]

def queryParams (category : IssueCategory) (title body : Option Text) : List (Text × Text) :=
  (lit "template", category.templateFilename) :: (unlessEmpty (lit "title") title ++ unlessEmpty (lit "body") body)

def buildGithubIssueUrl (repoUrl : Text) (category : IssueCategory) (title body : Option Text) : Text :=
  let base := rstripSlashes repoUrl
  if category = .securityReport then base ++ lit "/security/advisories/new"
  else base ++ (lit "/issues/new?" ++ urlencode (queryParams category title body))

/-! ## What a browser makes of a link -/

structure Link where
  page : Text
  query : List (Text × Text)
  fragment : Option Text
  deriving DecidableEq

/-- A reference up to its first `#`, and that up to its first `?`. -/
def readLink (url : Text) : Link :=
  let resource := url.takeWhile (· ≠ '#')
  { page := resource.takeWhile (· ≠ '?')
    query := if '?' ∈ resource then queryPairs ((resource.dropWhile (· ≠ '?')).drop 1) else []
    fragment := if '#' ∈ url then some ((url.dropWhile (· ≠ '#')).drop 1) else none }

theorem takeWhile_notMem {t : Text} {c : Char} (h : c ∉ t) : t.takeWhile (· ≠ c) = t := by
  rw [List.takeWhile_eq_self_iff]
  intro a ha
  simp only [ne_eq, decide_eq_true_eq]
  rintro rfl
  exact h ha

theorem readLink_plain {page : Text} (hquery : '?' ∉ page) (hfragment : '#' ∉ page) : readLink page = ⟨page, [], none⟩ := by
  unfold readLink
  simp only [takeWhile_notMem hfragment, takeWhile_notMem hquery, if_neg hquery, if_neg hfragment]

theorem readLink_query {page : Text} {pairs : List (Text × Text)} (hquery : '?' ∉ page) (hfragment : '#' ∉ page) (hpairs : pairs ≠ []) :
    readLink (page ++ '?' :: urlencode pairs) = ⟨page, pairs, none⟩ := by
  have hnone : '#' ∉ page ++ '?' :: urlencode pairs := by
    rw [List.mem_append, List.mem_cons]
    rintro (h | h | h)
    · exact hfragment h
    · exact absurd h (by decide)
    · exact notMem_urlencode rfl (by decide) (by decide) (by decide) h
  unfold readLink
  simp only [takeWhile_notMem hnone, if_neg hnone]
  rw [takeWhile_ne_stop hquery, dropWhile_ne_stop hquery, if_pos (by simp), List.drop_one, List.tail_cons, queryPairs_urlencode hpairs]

theorem notMem_rstripSlashes {repoUrl : Text} {c : Char} (h : c ∉ repoUrl) : c ∉ rstripSlashes repoUrl := by
  intro hmem
  unfold rstripSlashes at hmem
  rw [List.mem_reverse] at hmem
  exact h (List.mem_reverse.mp ((List.dropWhile_sublist _).mem hmem))

/-- **The composer gets the title and the body as they were typed.** No text of a user adds a parameter, changes the page or
opens a fragment, and none of it is in the link of a security report. -/
theorem issue_link_reads_back {repoUrl : Text} (hquery : '?' ∉ repoUrl) (hfragment : '#' ∉ repoUrl) (category : IssueCategory)
    (title body : Option Text) : readLink (buildGithubIssueUrl repoUrl category title body) =
      if category = .securityReport then ⟨rstripSlashes repoUrl ++ lit "/security/advisories/new", [], none⟩
      else ⟨rstripSlashes repoUrl ++ lit "/issues/new", queryParams category title body, none⟩ := by
  have hbase := notMem_rstripSlashes hquery
  have hbase' := notMem_rstripSlashes hfragment
  unfold buildGithubIssueUrl
  split
  · refine readLink_plain ?_ ?_
    · exact List.not_mem_append hbase (by decide)
    · exact List.not_mem_append hbase' (by decide)
  · have hurl : rstripSlashes repoUrl ++ (lit "/issues/new?" ++ urlencode (queryParams category title body)) =
        (rstripSlashes repoUrl ++ lit "/issues/new") ++ '?' :: urlencode (queryParams category title body) := by
      rw [List.append_assoc]
      rfl
    rw [hurl]
    refine readLink_query ?_ ?_ (List.cons_ne_nil _ _)
    · exact List.not_mem_append hbase (by decide)
    · exact List.not_mem_append hbase' (by decide)

/-- A title with every character that parts a URL. -/
theorem issue_link_reads_title :
    readLink (buildGithubIssueUrl (lit "https://github.com/org/repo/") .bugReport (some (lit "50% & more? a=b #1")) none) =
      ⟨lit "https://github.com/org/repo/issues/new",
        [(lit "template", lit "bug_report.md"), (lit "title", lit "50% & more? a=b #1")], none⟩ :=
  (issue_link_reads_back (by decide) (by decide) .bugReport _ none).trans (by decide +kernel)

end Palworld.Feedback
