import Mathlib.Tactic.Common
import Mathlib.Data.List.TakeWhile

/-!
# A stream that is read by lines

What `asyncio.StreamReader` makes of a stream. It arrives in chunks of any size, and a line
is cut off at its separator unless it is longer than the limit.
-/

namespace Lib

variable {α : Type} [DecidableEq α]

/-- What a `readline` gives: a line, or without a separator the rest of the stream, or the `ValueError` of a line over
the limit. -/
inductive LineRead (α : Type)
  | line (items : List α)
  | overrun
  deriving DecidableEq

/-- `readline`, with what it leaves in the buffer and what is still to arrive. -/
def readline (sep : α) (limit : Nat) : List α → List (List α) → LineRead α × List α × List (List α)
  | buffer, chunks =>
    match buffer.dropWhile (· ≠ sep) with
    | _ :: rest =>
      if (buffer.takeWhile (· ≠ sep)).length > limit then (.overrun, rest, chunks)
      else (.line (buffer.takeWhile (· ≠ sep) ++ [sep]), rest, chunks)
    | [] =>
      if buffer.length > limit then (.overrun, [], chunks)
      else
        match chunks with
        | [] => (.line buffer, [], [])
        | chunk :: chunks => readline sep limit (buffer ++ chunk) chunks

/-- The lines of a stream: what is cut off at the separators, and what is left. -/
def linesOf (sep : α) (lines : List (List α)) : List α := (lines.map (· ++ [sep])).flatten

variable {sep : α} {limit : Nat} {buffer line rest : List α} {chunks : List (List α)}

theorem takeWhile_sep (h : sep ∉ line) : (line ++ sep :: rest).takeWhile (· ≠ sep) = line := by
  rw [List.takeWhile_append_of_pos, List.takeWhile_cons_of_neg (by simp), List.append_nil]
  intro a ha
  simp only [ne_eq, decide_eq_true_eq]
  rintro rfl
  exact h ha

theorem dropWhile_sep (h : sep ∉ line) : (line ++ sep :: rest).dropWhile (· ≠ sep) = sep :: rest := by
  rw [List.dropWhile_append_of_pos, List.dropWhile_cons_of_neg (by simp)]
  intro a ha
  simp only [ne_eq, decide_eq_true_eq]
  rintro rfl
  exact h ha

theorem dropWhile_no_sep (h : sep ∉ buffer) : buffer.dropWhile (· ≠ sep) = [] := by
  rw [List.dropWhile_eq_nil_iff]
  intro a ha
  simp only [ne_eq, decide_eq_true_eq]
  rintro rfl
  exact h ha

omit [DecidableEq α] in
/-- A buffer is the beginning of a stream: it has the first line of it, or a part of that. -/
theorem buffer_cases {tail : List α} (hline : sep ∉ line) (h : buffer ++ tail = line ++ sep :: rest) :
    (∃ more, buffer = line ++ sep :: more ∧ rest = more ++ tail) ∨ sep ∉ buffer ∧ buffer.length ≤ line.length := by
  rcases List.append_eq_append_iff.mp h with ⟨more, hmore, htail⟩ | ⟨more, hbuffer, htail⟩
  · refine .inr ⟨fun hin => hline (hmore ▸ List.mem_append_left _ hin), ?_⟩
    rw [hmore, List.length_append]
    omega
  · cases more with
    | nil =>
      rw [List.append_nil] at hbuffer
      exact .inr ⟨hbuffer ▸ hline, by rw [hbuffer]⟩
    | cons a more =>
      rw [List.cons_append, List.cons.injEq] at htail
      obtain ⟨rfl, hrest⟩ := htail
      exact .inl ⟨more, hbuffer, hrest⟩

theorem readline_cut (hline : sep ∉ line) (hlimit : line.length ≤ limit) :
    readline sep limit (line ++ sep :: rest) chunks = (.line (line ++ [sep]), rest, chunks) := by
  unfold readline
  rw [dropWhile_sep hline, takeWhile_sep hline]
  exact if_neg (by omega)

theorem readline_long (hline : sep ∉ line) (hlimit : limit < line.length) :
    readline sep limit (line ++ sep :: rest) chunks = (.overrun, rest, chunks) := by
  unfold readline
  rw [dropWhile_sep hline, takeWhile_sep hline]
  exact if_pos hlimit

/-- However the stream arrives, `readline` cuts off a first line within the limit. -/
theorem readline_line (hline : sep ∉ line) (hlimit : line.length ≤ limit)
    (h : buffer ++ chunks.flatten = line ++ sep :: rest) :
    ∃ buffer' chunks', readline sep limit buffer chunks = (.line (line ++ [sep]), buffer', chunks') ∧
      buffer' ++ chunks'.flatten = rest := by
  induction chunks generalizing buffer with
  | nil =>
    rw [List.flatten_nil, List.append_nil] at h
    rw [h, readline_cut hline hlimit]
    exact ⟨rest, [], rfl, by simp⟩
  | cons chunk chunks ih =>
    rcases buffer_cases hline h with ⟨more, rfl, hrest⟩ | ⟨hsep, hlength⟩
    · rw [readline_cut hline hlimit]
      exact ⟨more, chunk :: chunks, rfl, hrest.symm⟩
    · unfold readline
      rw [dropWhile_no_sep hsep]
      dsimp only
      rw [if_neg (by omega)]
      exact ih (by simpa using h)

theorem readline_overrun (hline : sep ∉ line) (hlimit : limit < line.length)
    (h : buffer ++ chunks.flatten = line ++ sep :: rest) : (readline sep limit buffer chunks).1 = .overrun := by
  induction chunks generalizing buffer with
  | nil =>
    rw [List.flatten_nil, List.append_nil] at h
    rw [h, readline_long hline hlimit]
  | cons chunk chunks ih =>
    rcases buffer_cases hline h with ⟨more, rfl, hrest⟩ | ⟨hsep, -⟩
    · rw [readline_long hline hlimit]
    · unfold readline
      rw [dropWhile_no_sep hsep]
      dsimp only
      split
      · rfl
      · exact ih (by simpa using h)

theorem readline_eof (h : buffer ++ chunks.flatten = []) : readline sep limit buffer chunks = (.line [], [], []) := by
  induction chunks generalizing buffer with
  | nil =>
    obtain rfl : buffer = [] := by simpa using h
    simp [readline]
  | cons chunk chunks ih =>
    obtain ⟨rfl, hchunks⟩ := List.append_eq_nil_iff.mp h
    unfold readline
    simpa using ih (by simpa using hchunks)

/-! ## A whole stream -/

theorem takeWhile_append_sep {a : α} (h : buffer.dropWhile (· ≠ sep) = a :: rest) : buffer = buffer.takeWhile (· ≠ sep) ++ [sep] ++ rest := by
  have ha := List.head?_dropWhile_not (· ≠ sep) buffer
  rw [h] at ha
  obtain rfl : a = sep := by simpa using ha
  conv_lhs => rw [← List.takeWhile_append_dropWhile (p := (· ≠ a)) (l := buffer), h]
  simp

/-- A line is taken off the stream. -/
theorem readline_append {items buffer' : List α} {chunks' : List (List α)}
    (h : readline sep limit buffer chunks = (.line items, buffer', chunks')) :
    buffer ++ chunks.flatten = items ++ (buffer' ++ chunks'.flatten) := by
  induction chunks generalizing buffer with
  | nil =>
    unfold readline at h
    split at h
    · rename_i a rest hdrop
      split at h
      · cases h
      · cases h
        conv_lhs => rw [takeWhile_append_sep hdrop]
        simp
    · split at h
      · cases h
      · cases h
        simp
  | cons chunk chunks ih =>
    unfold readline at h
    split at h
    · rename_i a rest hdrop
      split at h
      · cases h
      · cases h
        conv_lhs => rw [takeWhile_append_sep hdrop]
        simp
    · split at h
      · cases h
      · rw [← ih h]
        simp

/-- `readline` again and again, up to the end of the stream or a line over the limit. -/
def lineReads (sep : α) (limit : Nat) (buffer : List α) (chunks : List (List α)) : List (LineRead α) :=
  match _h : readline sep limit buffer chunks with
  | (.line (item :: items), buffer', chunks') => .line (item :: items) :: lineReads sep limit buffer' chunks'
  | (last, _, _) => [last]
termination_by (buffer ++ chunks.flatten).length
decreasing_by
  rw [readline_append _h]
  simp only [List.length_append, List.length_cons]
  omega

theorem lineReads_line {item : α} {items buffer' : List α} {chunks' : List (List α)}
    (h : readline sep limit buffer chunks = (.line (item :: items), buffer', chunks')) :
    lineReads sep limit buffer chunks = .line (item :: items) :: lineReads sep limit buffer' chunks' := by
  conv_lhs => unfold lineReads
  split
  · rename_i hread
    rw [h] at hread
    cases hread
    rfl
  · rename_i hlast hread
    rw [h] at hread
    cases hread
    exact (hlast _ _ rfl).elim

theorem lineReads_last (h : (readline sep limit buffer chunks).1 = .overrun ∨ (readline sep limit buffer chunks).1 = .line []) :
    lineReads sep limit buffer chunks = [(readline sep limit buffer chunks).1] := by
  unfold lineReads
  split
  · rename_i hread
    rw [hread] at h
    simp at h
  · rename_i hread
    rw [hread]

/-- What is read of these lines. -/
def readsOf (sep : α) (limit : Nat) : List (List α) → List (LineRead α)
  | [] => [.line []]
  | line :: lines => if line.length ≤ limit then .line (line ++ [sep]) :: readsOf sep limit lines else [.overrun]

omit [DecidableEq α] in
theorem readsOf_within {lines : List (List α)} (h : line.length ≤ limit) :
    readsOf sep limit (line :: lines) = .line (line ++ [sep]) :: readsOf sep limit lines := if_pos h

omit [DecidableEq α] in
theorem readsOf_over {lines : List (List α)} (h : limit < line.length) :
    readsOf sep limit (line :: lines) = [.overrun] := if_neg (Nat.not_le_of_lt h)

/-- **A stream of lines is read line by line**, however it is cut into chunks. -/
theorem lineReads_linesOf {lines : List (List α)} (hlines : ∀ line ∈ lines, sep ∉ line)
    (h : buffer ++ chunks.flatten = linesOf sep lines) : lineReads sep limit buffer chunks = readsOf sep limit lines := by
  induction lines generalizing buffer chunks with
  | nil =>
    have heof := @readline_eof α _ sep limit buffer chunks h
    rw [lineReads_last (.inr (congrArg Prod.fst heof)), heof]
    rfl
  | cons line lines ih =>
    rw [List.forall_mem_cons] at hlines
    have hfirst : buffer ++ chunks.flatten = line ++ sep :: linesOf sep lines := by
      rw [h]
      simp [linesOf]
    rcases Nat.lt_or_ge limit line.length with hlimit | hlimit
    · have hover := readline_overrun hlines.1 hlimit hfirst
      rw [readsOf_over hlimit, lineReads_last (.inl hover), hover]
    · obtain ⟨buffer', chunks', hread, hrest⟩ := readline_line hlines.1 hlimit hfirst
      obtain ⟨item, items, hitems⟩ := List.exists_cons_of_ne_nil (List.append_ne_nil_of_right_ne_nil line (List.cons_ne_nil sep []))
      rw [readsOf_within hlimit, hitems]
      rw [hitems] at hread
      rw [lineReads_line hread, ih hlines.2 hrest]

/-! ## A stream that is cut off -/

/-- Without a separator the rest of the stream is a line of its own. -/
theorem readline_tail (hline : sep ∉ line) (hlimit : line.length ≤ limit) (h : buffer ++ chunks.flatten = line) :
    readline sep limit buffer chunks = (.line line, [], []) := by
  induction chunks generalizing buffer with
  | nil =>
    obtain rfl : buffer = line := by simpa using h
    unfold readline
    rw [dropWhile_no_sep hline]
    exact if_neg (by omega)
  | cons chunk chunks ih =>
    have hsep : sep ∉ buffer := fun hin => hline (h ▸ List.mem_append_left _ hin)
    have hlength : buffer.length ≤ line.length := by simp [← h]
    unfold readline
    rw [dropWhile_no_sep hsep]
    dsimp only
    rw [if_neg (by omega)]
    exact ih (by simpa using h)

theorem readline_tail_over (hline : sep ∉ line) (hlimit : limit < line.length) (h : buffer ++ chunks.flatten = line) :
    (readline sep limit buffer chunks).1 = .overrun := by
  induction chunks generalizing buffer with
  | nil =>
    obtain rfl : buffer = line := by simpa using h
    unfold readline
    rw [dropWhile_no_sep hline]
    dsimp only
    rw [if_pos hlimit]
  | cons chunk chunks ih =>
    have hsep : sep ∉ buffer := fun hin => hline (h ▸ List.mem_append_left _ hin)
    unfold readline
    rw [dropWhile_no_sep hsep]
    dsimp only
    split
    · rfl
    · exact ih (by simpa using h)

/-- What `readline` gives of a stream that is cut off anywhere is the beginning of its first line. -/
theorem readline_cut_off (hline : sep ∉ line) (h : chunks.flatten <+: line ++ sep :: rest) :
    (readline sep limit [] chunks).1 = .overrun ∨
      ∃ read, (readline sep limit [] chunks).1 = .line read ∧ read <+: line ++ [sep] := by
  obtain ⟨tail, htail⟩ := h
  rcases buffer_cases hline htail with ⟨more, hmore, -⟩ | ⟨hsep, hlength⟩
  · rcases Nat.lt_or_ge limit line.length with hlimit | hlimit
    · exact .inl (readline_overrun hline hlimit hmore)
    · obtain ⟨buffer', chunks', hread, -⟩ := readline_line hline hlimit (show [] ++ chunks.flatten = _ from hmore)
      exact .inr ⟨_, congrArg Prod.fst hread, List.prefix_refl _⟩
  · rcases Nat.lt_or_ge limit chunks.flatten.length with hlimit | hlimit
    · exact .inl (readline_tail_over hsep hlimit (List.nil_append _))
    · refine .inr ⟨_, congrArg Prod.fst (readline_tail hsep hlimit (List.nil_append _)), ?_⟩
      refine List.prefix_of_prefix_length_le ⟨tail, htail⟩ ⟨rest, by simp⟩ ?_
      rw [List.length_append]
      omega

/-- One line that is cut off anywhere is read at most once. -/
theorem lineReads_cut_off (hline : sep ∉ line) (h : chunks.flatten <+: line ++ [sep]) :
    lineReads sep limit [] chunks = [.overrun] ∨ lineReads sep limit [] chunks = [.line []] ∨
      ∃ item items, item :: items <+: line ++ [sep] ∧ lineReads sep limit [] chunks = [.line (item :: items), .line []] := by
  obtain ⟨tail, htail⟩ := h
  rcases buffer_cases hline htail with ⟨more, hmore, hrest⟩ | ⟨hsep, -⟩
  · have hlines : [] ++ chunks.flatten = linesOf sep [line] := by
      rw [List.nil_append, hmore, (List.append_eq_nil_iff.mp hrest.symm).1]
      simp [linesOf]
    rw [lineReads_linesOf (List.forall_mem_singleton.mpr hline) hlines]
    unfold readsOf
    split_ifs
    · obtain ⟨item, items, hitems⟩ := List.exists_cons_of_ne_nil (List.append_ne_nil_of_right_ne_nil line (List.cons_ne_nil sep []))
      rw [hitems]
      exact .inr (.inr ⟨item, items, List.prefix_refl _, rfl⟩)
    · exact .inl rfl
  · rcases Nat.lt_or_ge limit chunks.flatten.length with hlimit | hlimit
    · have hover := @readline_tail_over α _ sep limit [] _ chunks hsep hlimit (List.nil_append _)
      exact .inl (by rw [lineReads_last (.inl hover), hover])
    · have hread := @readline_tail α _ sep limit [] _ chunks hsep hlimit (List.nil_append _)
      cases hitems : chunks.flatten with
      | nil =>
        rw [hitems] at hread
        have hlast := congrArg Prod.fst hread
        exact .inr (.inl (by rw [lineReads_last (.inr hlast), hlast]))
      | cons item items =>
        rw [hitems] at hread
        refine .inr (.inr ⟨item, items, ⟨tail, hitems ▸ htail⟩, ?_⟩)
        have heof := @readline_eof α _ sep limit [] [] rfl
        rw [lineReads_line hread, lineReads_last (.inr (congrArg Prod.fst heof)), heof]

end Lib
