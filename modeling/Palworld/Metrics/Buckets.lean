import Palworld.Metrics.Retention

/-!
# The buckets of the history

A label cut out of a timestamp is the sampling time, floored to the resolution of the window. The
summary is what a fold over the buckets of the 30 days gives.
-/

open Lib

namespace Palworld.Metrics.Store

/-- The resolution of a window, in seconds. -/
def stepSeconds : Window → Nat
  | .h1 => 60
  | .h24 => 600
  | .d7 => 3600
  | .d30 => 86400

/-- The start of the bucket that a time falls into. -/
def bucketStart (window : Window) (t : DateTime) : DateTime := t.floor (stepSeconds window * 10 ^ 6)

/-! ## The labels -/

section

variable {window : Window} {t : DateTime} {s : Nat} {front : Text}

theorem seconds_bucketStart : (bucketStart window t).seconds = t.seconds / stepSeconds window * stepSeconds window := by
  unfold bucketStart DateTime.floor DateTime.seconds
  dsimp only
  rw [Nat.mul_comm (stepSeconds window), ← Nat.div_div_eq_div_mul, Nat.mul_comm (10 ^ 6), ← Nat.mul_assoc,
    Nat.mul_div_cancel _ (by decide)]

/-- The date and the hour, up to `YYYY-MM-DDTHH`. -/
def hourText (s : Nat) : Text := dateText (s / 86400) ++ 'T' :: padded 2 (s % 86400 / 3600)

theorem clock_eq (s : Nat) :
    clock s = hourText s ++ (':' :: (padded 2 (s % 86400 / 60 % 60) ++ ':' :: padded 2 (s % 86400 % 60))) := by
  unfold clock hourText timeText
  simp only [List.append_assoc, List.cons_append]

theorem length_hourText : (hourText s).length = 13 := by
  unfold hourText
  rw [List.length_append, List.length_cons, length_dateText, length_padded]

/-- Two digits are the tens and the units. -/
theorem padded_two (n : Nat) : padded 2 n = padded 1 (n / 10) ++ [Nat.digitChar (n % 10)] := rfl

theorem hourText_congr {s' : Nat} (hday : s' / 86400 = s / 86400) (hhour : s' % 86400 / 3600 = s % 86400 / 3600) : hourText s' = hourText s := by
  unfold hourText
  rw [hday, hhour]

/-- A label is a front of the clock, which the clock of the start has too, and then what that clock ends with. -/
theorem label_of_front {n : Nat} (tail : Text) (u : DateTime) (hlen : front.length = n) (hclock : front <+: clock t.seconds)
    (hstart : clock u.seconds = front ++ tail) : t.isoformat.take n ++ (tail ++ ['Z']) = u.zulu := by
  subst hlen
  obtain ⟨back, hback⟩ := hclock
  unfold DateTime.isoformat DateTime.zulu
  rw [← hback, hstart, List.append_assoc, List.take_left, List.append_assoc]

theorem label_minute : bucketLabel .h1 t.isoformat = (bucketStart .h1 t).zulu := by
  have hhour : hourText (t.seconds / 60 * 60) = hourText t.seconds := hourText_congr (by omega) (by omega)
  have hminute : t.seconds / 60 * 60 % 86400 / 60 % 60 = t.seconds % 86400 / 60 % 60 := by omega
  have hsecond : t.seconds / 60 * 60 % 86400 % 60 = 0 := by omega
  have hstart : clock (bucketStart .h1 t).seconds = (hourText t.seconds ++ ':' :: padded 2 (t.seconds % 86400 / 60 % 60)) ++ lit ":00" := by
    rw [seconds_bucketStart]
    unfold stepSeconds
    rw [clock_eq, hhour, hminute, hsecond, List.append_assoc, List.cons_append]
    rfl
  refine label_of_front (lit ":00") (bucketStart .h1 t) ?_ ⟨':' :: padded 2 (t.seconds % 86400 % 60), ?_⟩ hstart
  · rw [List.length_append, List.length_cons, length_hourText, length_padded]
  · rw [clock_eq, List.append_assoc, List.cons_append]

theorem label_ten_minutes : bucketLabel .h24 t.isoformat = (bucketStart .h24 t).zulu := by
  have hhour : hourText (t.seconds / 600 * 600) = hourText t.seconds := hourText_congr (by omega) (by omega)
  have htens : t.seconds / 600 * 600 % 86400 / 60 % 60 / 10 = t.seconds % 86400 / 60 % 60 / 10 := by omega
  have hunits : t.seconds / 600 * 600 % 86400 / 60 % 60 % 10 = 0 := by omega
  have hsecond : t.seconds / 600 * 600 % 86400 % 60 = 0 := by omega
  have hstart : clock (bucketStart .h24 t).seconds =
      (hourText t.seconds ++ ':' :: padded 1 (t.seconds % 86400 / 60 % 60 / 10)) ++ lit "0:00" := by
    rw [seconds_bucketStart]
    unfold stepSeconds
    rw [clock_eq, hhour, padded_two, htens, hunits, hsecond, List.append_assoc, List.cons_append, List.append_assoc]
    rfl
  refine label_of_front (lit "0:00") (bucketStart .h24 t) ?_
    ⟨Nat.digitChar (t.seconds % 86400 / 60 % 60 % 10) :: ':' :: padded 2 (t.seconds % 86400 % 60), ?_⟩ hstart
  · rw [List.length_append, List.length_cons, length_hourText, length_padded]
  · rw [clock_eq, padded_two (t.seconds % 86400 / 60 % 60), List.append_assoc, List.append_assoc, List.cons_append, List.singleton_append]

theorem label_hour : bucketLabel .d7 t.isoformat = (bucketStart .d7 t).zulu := by
  have hhour : hourText (t.seconds / 3600 * 3600) = hourText t.seconds := hourText_congr (by omega) (by omega)
  have hminute : t.seconds / 3600 * 3600 % 86400 / 60 % 60 = 0 := by omega
  have hsecond : t.seconds / 3600 * 3600 % 86400 % 60 = 0 := by omega
  have hstart : clock (bucketStart .d7 t).seconds = hourText t.seconds ++ lit ":00:00" := by
    rw [seconds_bucketStart]
    unfold stepSeconds
    rw [clock_eq, hhour, hminute, hsecond]
    rfl
  exact label_of_front (lit ":00:00") (bucketStart .d7 t) length_hourText ⟨_, (clock_eq t.seconds).symm⟩ hstart

theorem label_day : bucketLabel .d30 t.isoformat = (bucketStart .d30 t).zulu := by
  have hday : t.seconds / 86400 * 86400 / 86400 = t.seconds / 86400 := by omega
  have hrest : t.seconds / 86400 * 86400 % 86400 = 0 := by omega
  have hstart : clock (bucketStart .d30 t).seconds = dateText (t.seconds / 86400) ++ lit "T00:00:00" := by
    rw [seconds_bucketStart]
    unfold stepSeconds clock
    rw [hday, hrest]
    rfl
  exact label_of_front (lit "T00:00:00") (bucketStart .d30 t) length_dateText ⟨_, rfl⟩ hstart

/-- The label is the start of the bucket. -/
theorem bucketLabel_isoformat : bucketLabel window t.isoformat = (bucketStart window t).zulu := by
  cases window with
  | h1 => exact label_minute
  | h24 => exact label_ten_minutes
  | d7 => exact label_hour
  | d30 => exact label_day

end

/-! ## The columns -/

/-- The averages lie between the extremes. -/
structure MetricBucketRecord.Ordered (b : MetricBucketRecord) : Prop where
  min_fps : b.min_fps ≤ b.avg_fps
  max_fps : b.avg_fps ≤ b.max_fps
  players : b.avg_players ≤ b.max_players
  cpu : b.avg_cpu_pct ≤ b.max_cpu_pct
  ram : b.avg_ram_pct ≤ b.max_ram_pct

section

variable {xs ys : List ℚ} {rows : Table} {bucket : Text}

theorem rounded_some {a : ℚ} : rounded (some a) = roundTo 2 a := rfl

theorem rounded_avg_le_max (hne : xs ≠ []) : rounded (avg xs) ≤ rounded xs.max? := by
  obtain ⟨m, hm⟩ := exists_max? hne
  rw [avg_eq hne, hm, rounded_some, rounded_some]
  exact roundTo_mono (mean_le hne (List.max?_eq_some_iff.mp hm).2)

theorem rounded_min_le_avg (hne : xs ≠ []) : rounded xs.min? ≤ rounded (avg xs) := by
  obtain ⟨m, hm⟩ := exists_min? hne
  rw [avg_eq hne, hm, rounded_some, rounded_some]
  exact roundTo_mono (le_mean hne (List.min?_eq_some_iff.mp hm).2)

/-- A whole number is not rounded. -/
theorem rounded_avg_le_maxInt {ns : List Int} (hne : ns ≠ []) : rounded (avg (ns.map fun n : Int => (n : ℚ))) ≤ (ns.max?.getD 0 : Int) := by
  obtain ⟨m, hm⟩ := exists_max? hne
  have hcast : ns.map (fun n : Int => (n : ℚ)) ≠ [] := fun h => hne (List.map_eq_nil_iff.mp h)
  rw [avg_eq hcast, hm, rounded_some, Option.getD_some, ← roundTo_intCast 2 m]
  refine roundTo_mono (mean_le hcast fun q hq => ?_)
  obtain ⟨n, hn, rfl⟩ := List.mem_map.mp hq
  exact_mod_cast (List.max?_eq_some_iff.mp hm).2 n hn

theorem ordered_bucketRecord (hne : rows ≠ []) : (bucketRecord bucket rows).Ordered := by
  have hmap : ∀ {β : Type} (f : Row → β), rows.map f ≠ [] := fun f h => hne (List.map_eq_nil_iff.mp h)
  have hplayers := rounded_avg_le_maxInt (hmap Row.active_players)
  rw [List.map_map] at hplayers
  exact ⟨rounded_min_le_avg (hmap _), rounded_avg_le_max (hmap _), hplayers, rounded_avg_le_max (hmap _), rounded_avg_le_max (hmap _)⟩

end

/-! ## The history -/

/-- The buckets partition the selected rows by their floored times, in the order of time. -/
structure Aggregates (sampled : Row → DateTime) (window : Window) (selected : Table) (bs : List (Text × Table)) : Prop where
  one_bucket : ∀ r ∈ selected, ∃! b, b ∈ bs ∧ r ∈ b.2
  label : ∀ b ∈ bs, ∀ r ∈ b.2, r ∈ selected ∧ b.1 = (bucketStart window (sampled r)).zulu
  ascending : bs.Pairwise fun b b' => b.1 < b'.1 ∧
    ∀ r ∈ b.2, ∀ r' ∈ b'.2, (bucketStart window (sampled r)).micros < (bucketStart window (sampled r')).micros
  counts : (bs.map fun b => (bucketRecord b.1 b.2).sample_count).sum = selected.length
  ordered : ∀ b ∈ bs, (bucketRecord b.1 b.2).Ordered

section

variable {sampled : Row → DateTime} {window : Window} {rows : Table} {b : Text × Table} {r : Row}

theorem mem_buckets_label (hstamped : Stamped sampled rows) (hb : b ∈ buckets window rows) (hr : r ∈ b.2) :
    r ∈ rows ∧ b.1 = (bucketStart window (sampled r)).zulu := by
  obtain ⟨hmem, hlabel⟩ := (mem_group_iff hb).mp hr
  refine ⟨hmem, ?_⟩
  rw [← hlabel, hstamped r hmem, bucketLabel_isoformat]

theorem start_lt_of_zulu {t u : DateTime} (h : t.zulu < u.zulu) : t.micros < u.micros := by
  by_contra hge
  have hsec : u.seconds ≤ t.seconds := Nat.div_le_div_right (Nat.not_lt.mp hge)
  rcases Nat.lt_or_eq_of_le hsec with hlt | heq
  · exact List.lt_asymm h (DateTime.zulu_lt hlt)
  · unfold DateTime.zulu at h
    rw [heq] at h
    exact List.lt_irrefl _ h

theorem aggregates_buckets (hstamped : Stamped sampled rows) : Aggregates sampled window rows (buckets window rows) where
  one_bucket r hr := by
    refine ⟨_, ⟨group_of_mem hr, (mem_group_iff (group_of_mem hr)).mpr ⟨hr, rfl⟩⟩, ?_⟩
    rintro ⟨l, rs⟩ ⟨hb, hrs⟩
    obtain ⟨-, hrows⟩ := mem_groups.mp hb
    obtain ⟨-, hlabel⟩ := (mem_group_iff hb).mp hrs
    dsimp only at hrows hlabel
    rw [hrows, hlabel]
  label b hb r hr := mem_buckets_label hstamped hb hr
  ascending := by
    have hlabels : ((buckets window rows).map Prod.fst).Pairwise (· < ·) := groups_ascending
    rw [List.pairwise_map] at hlabels
    refine hlabels.imp_of_mem fun {b b'} hb hb' hlt => ⟨hlt, fun r hr r' hr' => ?_⟩
    have hlabel := (mem_buckets_label hstamped hb hr).2
    have hlabel' := (mem_buckets_label hstamped hb' hr').2
    rw [hlabel, hlabel'] at hlt
    exact start_lt_of_zulu hlt
  counts := sum_length_groups
  ordered b hb := ordered_bucketRecord (group_ne_nil hb)

end

/-! ## The summary -/

/-- The summary is the fold of the buckets of its window. -/
structure Folds (bs : List MetricBucketRecord) (summary : Metric30DaySummary) : Prop where
  total_samples : summary.total_samples = (bs.map MetricBucketRecord.sample_count).sum
  peak_players : (bs.map MetricBucketRecord.max_players).max? = some summary.peak_players
  lowest_fps : (bs.map MetricBucketRecord.min_fps).min? = some summary.lowest_fps
  peak_cpu_pct : (bs.map MetricBucketRecord.max_cpu_pct).max? = some summary.peak_cpu_pct
  peak_ram_pct : (bs.map MetricBucketRecord.max_ram_pct).max? = some summary.peak_ram_pct

section

variable {window : Window} {rows : Table}

theorem max?_rounded (f : Row → ℚ) (hne : rows ≠ []) :
    ((buckets window rows).map fun b => rounded (b.2.map f).max?).max? = some (rounded (rows.map f).max?) :=
  extreme_groups extreme_max extreme_max f (roundTo 2) (fun _ _ h => roundTo_mono h) (fun xs => rounded xs.max?)
    (fun _ _ h => congrArg rounded h) hne

theorem folds_history (hne : rows ≠ []) : Folds (history window rows) (summary rows) := by
  unfold history
  constructor
  · rw [List.map_map]
    exact sum_length_groups.symm
  · rw [List.map_map]
    exact extreme_groups extreme_max extreme_max Row.active_players id (fun _ _ h => h) (fun xs => xs.max?.getD 0)
      (fun _ _ h => congrArg (fun m => m.getD 0) h) hne
  · rw [List.map_map]
    exact extreme_groups extreme_min extreme_min Row.server_fps (roundTo 2) (fun _ _ h => roundTo_mono h) (fun xs => rounded xs.min?)
      (fun _ _ h => congrArg rounded h) hne
  · rw [List.map_map]
    exact max?_rounded Row.cpu_avg_pct hne
  · rw [List.map_map]
    exact max?_rounded Row.host_ram_pct hne

end

/-- The history aggregates the rows from the cutoff on, and the summary is the fold of the history of the 30 days. -/
theorem history_aggregates (sampled : Row → DateTime) (s : Session Table) (now : DateTime) (hstamped : Stamped sampled s.current)
    (hfault : ¬ s.Faulty) :
    (∀ window cutoff, now.sub (span (windowOf window)) = some cutoff → ∃ bs : List (Text × Table),
      ((getHistory window now).on s).1 = .ok (bs.map fun b => bucketRecord b.1 b.2) ∧
      Aggregates sampled (windowOf window) (atOrAfter sampled cutoff s.current) bs) ∧
    ∀ cutoff, now.sub (days 30) = some cutoff → atOrAfter sampled cutoff s.current ≠ [] → ∃ bs total,
      ((getHistory (lit "30d") now).on s).1 = .ok bs ∧ ((get30DaySummary now).on s).1 = .ok total ∧ Folds bs total := by
  constructor
  · intro window cutoff hcutoff
    refine ⟨buckets (windowOf window) (atOrAfter sampled cutoff s.current), ?_, aggregates_buckets fun r hr => ?_⟩
    · rw [on_getHistory hcutoff, if_neg hfault, hstamped.since_eq]
      rfl
    · exact hstamped r (List.mem_filter.mp hr).1
  · intro cutoff hcutoff hne
    have hwindow : windowOf (lit "30d") = .d30 := by
      unfold windowOf
      rw [if_neg (by decide +kernel), if_neg (by decide +kernel), if_pos rfl]
    have hspan : now.sub (span (windowOf (lit "30d"))) = some cutoff := by
      rw [hwindow]
      exact hcutoff
    refine ⟨history .d30 (atOrAfter sampled cutoff s.current), summary (atOrAfter sampled cutoff s.current), ?_, ?_, folds_history hne⟩
    · rw [on_getHistory hspan, if_neg hfault, hstamped.since_eq, hwindow]
    · rw [on_get30DaySummary hcutoff, if_neg hfault, hstamped.since_eq]

/-- One of the four rows is older than a day. The others fall into two buckets, and all four count for the summary. -/
theorem history_aggregates_day : ∃ (bs : List (Text × Table)) (records : List MetricBucketRecord) (total : Metric30DaySummary),
    ((getHistory (lit "24h") noon).on ⟨dayRows, dayRows, []⟩).1 = .ok (bs.map fun b => bucketRecord b.1 b.2) ∧
      Aggregates (fun r => sampledAt r.id) .h24 [rowOf 3 5, rowOf 4 2, rowOf 2 7] bs ∧
      lit "0002-01-01T12:00:00Z" ∈ bs.map Prod.fst ∧ lit "0002-01-02T12:00:00Z" ∈ bs.map Prod.fst ∧
    ((getHistory (lit "30d") noon).on ⟨dayRows, dayRows, []⟩).1 = .ok records ∧
      ((get30DaySummary noon).on ⟨dayRows, dayRows, []⟩).1 = .ok total ∧ Folds records total ∧
      (records.map MetricBucketRecord.sample_count).sum = 4 ∧ total.peak_players = 9 := by
  obtain ⟨haggregates, hfolds⟩ := history_aggregates (fun r => sampledAt r.id) ⟨dayRows, dayRows, []⟩ noon stamped_dayRows (by decide)
  obtain ⟨bs, hbs, hagg⟩ := haggregates (lit "24h") dayBefore (by decide)
  have hlabel : ∀ r ∈ [rowOf 3 5, rowOf 4 2, rowOf 2 7], (bucketStart .h24 (sampledAt r.id)).zulu ∈ bs.map Prod.fst := by
    intro r hr
    obtain ⟨b, ⟨hb, hrb⟩, -⟩ := hagg.one_bucket r hr
    have hstart : b.1 = (bucketStart .h24 (sampledAt r.id)).zulu := (hagg.label b hb r hrb).2
    exact hstart ▸ List.mem_map_of_mem hb
  have hmonth : noon.sub (days 30) = some ⟨(336 * 86400 + 43200) * 10 ^ 6, by decide⟩ := by decide
  obtain ⟨records, total, hrecords, htotal, hfold⟩ := hfolds _ hmonth (by decide)
  have hsummary := htotal
  rw [on_get30DaySummary hmonth, if_neg (by decide)] at hsummary
  cases hsummary
  exact ⟨bs, records, _, hbs, hagg, hlabel (rowOf 3 5) (by decide), hlabel (rowOf 4 2) (by decide), hrecords, htotal, hfold,
    hfold.total_samples.symm.trans rfl, rfl⟩

end Palworld.Metrics.Store
