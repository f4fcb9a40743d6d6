import Mathlib.Data.List.Basic
import Mathlib.Data.List.Count
import Mathlib.Logic.Function.Basic

namespace M1nd.Library.Buckets

variable {α β : Type}

-- A counting sort: the keys are counted, the counts become offsets, and a cursor per key
-- hands out the positions.

-- `counts[key + 1]` is the number of times the key occurs.
def counts (n : Nat) (keys : List Nat) : List Nat :=
  keys.foldl (fun counts key => counts.modify (key + 1) (· + 1)) (List.replicate (n + 1) 0)

def prefixSums (n : Nat) (counts : List Nat) : List Nat :=
  (List.range n).foldl (fun sums i => sums.modify (i + 1) (· + sums.getD i 0)) counts

def offsets (n : Nat) (keys : List Nat) : List Nat :=
  prefixSums n (counts n keys)

def positions (cursors : List Nat) : List Nat → List Nat
  | [] => []
  | key :: keys => cursors.getD key 0 :: positions (cursors.modify key (· + 1)) keys

def scatter (out : List β) (writes : List (Nat × β)) : List β :=
  writes.foldl (fun out write => out.set write.1 write.2) out

-- The values of one key, in their order.
def bucket (entries : List (Nat × β)) (key : Nat) : List β :=
  (entries.filter fun entry => entry.1 = key).map Prod.snd

def buckets (n : Nat) (entries : List (Nat × β)) : List β :=
  (List.range n).flatMap (bucket entries)

section Offsets

variable {n : Nat} {keys : List Nat}

theorem getD_modify (f : Nat → Nat) (list : List Nat) (i j : Nat) :
    (list.modify i f).getD j 0 =
      if i = j ∧ j < list.length then f (list.getD j 0) else list.getD j 0 := by
  simp only [List.getD_eq_getElem?_getD, List.getElem?_modify]
  by_cases hj : j < list.length
  · by_cases hij : i = j
    · simp [hij, hj]
    · simp [hij, hj]
  · simp [hj]

theorem length_counts : (counts n keys).length = n + 1 := by
  have h (out : List Nat) :
      (keys.foldl (fun counts key => counts.modify (key + 1) (· + 1)) out).length = out.length := by
    induction keys generalizing out with
    | nil => rfl
    | cons key keys ih => rw [List.foldl_cons, ih, List.length_modify]
  rw [counts, h, List.length_replicate]

private theorem getD_foldl_counts (out : List Nat) (i : Nat) (hout : i + 1 < out.length) :
    (keys.foldl (fun counts key => counts.modify (key + 1) (· + 1)) out).getD (i + 1) 0 =
      out.getD (i + 1) 0 + keys.count i := by
  induction keys generalizing out with
  | nil => rfl
  | cons key keys ih =>
      rw [List.foldl_cons, ih _ (by simpa using hout), List.count_cons, getD_modify]
      by_cases hkey : key = i
      · subst hkey
        simp only [hout, and_self, if_true, beq_self_eq_true]
        omega
      · simp [hkey]

private theorem getD_zero_foldl_counts (out : List Nat) :
    (keys.foldl (fun counts key => counts.modify (key + 1) (· + 1)) out).getD 0 0 =
      out.getD 0 0 := by
  induction keys generalizing out with
  | nil => rfl
  | cons key keys ih =>
      rw [List.foldl_cons, ih, getD_modify]
      simp

theorem getD_counts {i : Nat} (hi : i < n) : (counts n keys).getD (i + 1) 0 = keys.count i := by
  rw [counts, getD_foldl_counts _ _ (by simpa using hi)]
  simp [List.getD_eq_getElem?_getD, hi]

theorem getD_counts_zero : (counts n keys).getD 0 0 = 0 := by
  rw [counts, getD_zero_foldl_counts]
  simp [List.getD_eq_getElem?_getD]

theorem countP_lt_succ (keys : List Nat) (i : Nat) :
    keys.countP (· < i + 1) = keys.countP (· < i) + keys.count i := by
  induction keys with
  | nil => rfl
  | cons key keys ih =>
      rw [List.countP_cons, List.countP_cons, List.count_cons, ih]
      by_cases hlt : key < i
      · have hne : key ≠ i := by omega
        have hle : key < i + 1 := by omega
        simp only [hlt, hle, hne, decide_true, if_true, beq_iff_eq, if_false]
        omega
      · by_cases heq : key = i
        · simp [heq]
          omega
        · have hle : ¬ key < i + 1 := by omega
          simp [hlt, hle, heq]

private theorem length_foldl_sums (m : Nat) (out : List Nat) :
    ((List.range m).foldl (fun sums i => sums.modify (i + 1) (· + sums.getD i 0)) out).length =
      out.length := by
  induction m with
  | zero => rfl
  | succ m ih => rw [List.range_succ, List.foldl_append, List.foldl_cons, List.foldl_nil,
      List.length_modify, ih]

-- The prefix sums up to an index are done, the counts above it are untouched.
private theorem getD_foldl_sums (m : Nat) (hm : m ≤ n) (i : Nat) :
    ((List.range m).foldl (fun sums i => sums.modify (i + 1) (· + sums.getD i 0))
      (counts n keys)).getD i 0 =
        if i ≤ m then keys.countP (· < i) else (counts n keys).getD i 0 := by
  induction m generalizing i with
  | zero =>
      by_cases hi : i ≤ 0
      · obtain rfl : i = 0 := by omega
        rw [List.range_zero, List.foldl_nil, getD_counts_zero]
        simp
      · simp [hi]
  | succ m ih =>
      rw [List.range_succ, List.foldl_append, List.foldl_cons, List.foldl_nil, getD_modify,
        length_foldl_sums, length_counts, ih (by omega), ih (by omega), if_pos (Nat.le_refl m)]
      by_cases hi : i = m + 1
      · subst hi
        have hin : m + 1 < n + 1 := by omega
        have hout : ¬ m + 1 ≤ m := by omega
        rw [if_pos ⟨rfl, hin⟩, if_neg hout, if_pos (Nat.le_refl _), getD_counts (by omega),
          countP_lt_succ]
        omega
      · have hne : ¬ (m + 1 = i ∧ i < n + 1) := by omega
        rw [if_neg hne]
        by_cases hle : i ≤ m
        · rw [if_pos hle, if_pos (by omega)]
        · rw [if_neg hle, if_neg (by omega)]

@[simp]
theorem length_offsets : (offsets n keys).length = n + 1 := by
  rw [offsets, prefixSums, length_foldl_sums, length_counts]

-- An offset is the number of the keys below.
theorem getD_offsets {i : Nat} (hi : i ≤ n) : (offsets n keys).getD i 0 = keys.countP (· < i) := by
  rw [offsets, prefixSums, getD_foldl_sums n (Nat.le_refl n), if_pos hi]

theorem offsets_eq_map : offsets n keys = (List.range (n + 1)).map fun i => keys.countP (· < i) := by
  apply List.ext_getElem
  · simp
  · intro i hi _
    rw [length_offsets] at hi
    have h : (offsets n keys).getD i 0 = keys.countP (· < i) := getD_offsets (by omega)
    rw [List.getD_eq_getElem?_getD, List.getElem?_eq_getElem (by simpa using hi),
      Option.getD_some] at h
    simpa using h

end Offsets

section Layout

-- A row holds what has been written of it so far and the places still free.
private def layout (n : Nat) (filled : Nat → List β) (free : Nat → Nat) (d : β) : List β :=
  (List.range n).flatMap fun k => filled k ++ List.replicate (free k) d

private theorem layout_succ (n : Nat) (filled : Nat → List β) (free : Nat → Nat) (d : β) :
    layout (n + 1) filled free d = layout n filled free d ++ (filled n ++ List.replicate (free n) d) := by
  simp [layout, List.range_succ]

private theorem layout_congr {n : Nat} {filled filled' : Nat → List β} {free free' : Nat → Nat}
    (d : β) (h : ∀ k < n, filled k = filled' k ∧ free k = free' k) :
    layout n filled free d = layout n filled' free' d := by
  induction n with
  | zero => rfl
  | succ n ih =>
      obtain ⟨hfilled, hfree⟩ := h n (by omega)
      rw [layout_succ, layout_succ, ih fun k hk => h k (by omega), hfilled, hfree]

private theorem length_layout_le {n k : Nat} (filled : Nat → List β) (free : Nat → Nat) (d : β)
    (hk : k < n) :
    (layout k filled free d).length + (filled k).length + free k ≤
      (layout n filled free d).length := by
  induction n with
  | zero => omega
  | succ n ih =>
      rw [layout_succ, List.length_append, List.length_append, List.length_replicate]
      by_cases he : k = n
      · subst he
        omega
      · have h := ih (by omega)
        omega

-- The first free place of a row takes the next value of the row.
private theorem set_layout {n k : Nat} (filled : Nat → List β) (free : Nat → Nat) (d v : β)
    (hk : k < n) (hfree : 0 < free k) :
    (layout n filled free d).set ((layout k filled free d).length + (filled k).length) v =
      layout n (Function.update filled k (filled k ++ [v])) (Function.update free k (free k - 1)) d := by
  induction n with
  | zero => omega
  | succ n ih =>
      rw [layout_succ, layout_succ]
      by_cases he : k = n
      · subst he
        have hbefore : layout k filled free d = layout k
            (Function.update filled k (filled k ++ [v])) (Function.update free k (free k - 1)) d := by
          apply layout_congr
          intro j hj
          have hne : j ≠ k := by omega
          simp [hne]
        obtain ⟨rest, hrest⟩ : ∃ rest, free k = rest + 1 := ⟨free k - 1, by omega⟩
        rw [← hbefore, List.set_append_right _ _ (by omega), Nat.add_sub_cancel_left,
          List.set_append_right _ _ (Nat.le_refl _), Nat.sub_self, Function.update_self,
          Function.update_self, hrest, List.replicate_succ, List.set_cons_zero, Nat.add_sub_cancel,
          List.append_assoc, List.singleton_append]
      · have hlt : k < n := by omega
        have hle := length_layout_le filled free d hlt
        rw [List.set_append_left _ _ (by omega), ih hlt, Function.update_of_ne (Ne.symm he),
          Function.update_of_ne (Ne.symm he)]

private theorem length_layout_update {n k : Nat} (filled : Nat → List β) (free : Nat → Nat)
    (d v : β) (hfree : 0 < free k) :
    (layout n (Function.update filled k (filled k ++ [v])) (Function.update free k (free k - 1))
      d).length = (layout n filled free d).length := by
  induction n with
  | zero => rfl
  | succ n ih =>
      simp only [layout_succ, List.length_append, ih, List.length_replicate]
      by_cases he : n = k
      · subst he
        simp only [Function.update_self, List.length_append, List.length_singleton]
        omega
      · rw [Function.update_of_ne he, Function.update_of_ne he]

private theorem bucket_cons (key k : Nat) (v : β) (entries : List (Nat × β)) :
    bucket ((key, v) :: entries) k = if key = k then v :: bucket entries k else bucket entries k := by
  by_cases he : key = k <;> simp [bucket, he]

-- Each cursor stands at the first free place of its row.
private theorem scatter_layout (n : Nat) (d : β) (entries : List (Nat × β)) (filled : Nat → List β)
    (cursors : List Nat) (hkeys : ∀ entry ∈ entries, entry.1 < n) (hlength : cursors.length = n)
    (hcursors : ∀ k < n, cursors.getD k 0 =
      (layout k filled (fun k => (entries.map Prod.fst).count k) d).length + (filled k).length) :
    scatter (layout n filled (fun k => (entries.map Prod.fst).count k) d)
        ((positions cursors (entries.map Prod.fst)).zip (entries.map Prod.snd)) =
      layout n (fun k => filled k ++ bucket entries k) (fun _ => 0) d := by
  induction entries generalizing filled cursors with
  | nil =>
      apply layout_congr
      simp [bucket]
  | cons entry entries ih =>
      obtain ⟨key, v⟩ := entry
      have hkey : key < n := hkeys (key, v) List.mem_cons_self
      have hpos := hcursors key hkey
      have hfree : 0 < (((key, v) :: entries).map Prod.fst).count key := by simp
      have hcount : Function.update (fun k => (((key, v) :: entries).map Prod.fst).count k) key
          ((((key, v) :: entries).map Prod.fst).count key - 1) =
          fun k => (entries.map Prod.fst).count k := by
        funext k
        by_cases he : k = key
        · subst he
          simp
        · rw [Function.update_of_ne he, List.map_cons, List.count_cons]
          simp [Ne.symm he]
      rw [List.map_cons, List.map_cons, positions, List.zip_cons_cons, scatter, List.foldl_cons,
        ← List.map_cons (f := Prod.fst) (a := (key, v)), hpos, set_layout filled _ d v hkey hfree,
        hcount]
      have hnext (k : Nat) (hk : k < n) : (cursors.modify key (· + 1)).getD k 0 =
          (layout k (Function.update filled key (filled key ++ [v]))
            (fun k => (entries.map Prod.fst).count k) d).length +
            (Function.update filled key (filled key ++ [v]) k).length := by
        rw [← hcount, length_layout_update filled
          (fun k => (((key, v) :: entries).map Prod.fst).count k) d v hfree, getD_modify,
          hcursors k hk, hlength]
        by_cases he : key = k
        · subst he
          rw [if_pos ⟨rfl, hk⟩, Function.update_self, List.length_append, List.length_singleton]
          omega
        · rw [if_neg (by tauto), Function.update_of_ne (Ne.symm he)]
      have hdone := ih (Function.update filled key (filled key ++ [v]))
        (cursors.modify key (· + 1)) (fun entry hentry => hkeys entry (List.mem_cons_of_mem _ hentry))
        (by rw [List.length_modify, hlength]) hnext
      rw [scatter] at hdone
      rw [hdone]
      apply layout_congr
      intro k _
      rw [bucket_cons]
      by_cases he : k = key
      · subst he
        simp
      · simp [he, Ne.symm he]

private theorem length_layout_empty (n : Nat) (keys : List Nat) (d : β) :
    (layout n (fun _ => []) (fun k => keys.count k) d).length = keys.countP (· < n) := by
  induction n with
  | zero => simp [layout]
  | succ n ih =>
      rw [layout_succ, List.length_append, List.length_append, List.length_replicate, ih,
        List.length_nil, Nat.zero_add, countP_lt_succ]

private theorem layout_empty (n : Nat) (keys : List Nat) (d : β) :
    layout n (fun _ => []) (fun k => keys.count k) d = List.replicate (keys.countP (· < n)) d := by
  rw [List.eq_replicate_iff]
  refine ⟨length_layout_empty n keys d, fun b hb => ?_⟩
  simp only [layout, List.nil_append, List.mem_flatMap] at hb
  obtain ⟨k, -, hk⟩ := hb
  exact List.eq_of_mem_replicate hk

-- The counting sort writes every value to its place: the rows follow one another, and a row
-- keeps its values in order.
theorem scatter_eq_buckets {n : Nat} {entries : List (Nat × β)} (d : β)
    (hkeys : ∀ entry ∈ entries, entry.1 < n) :
    scatter (List.replicate ((offsets n (entries.map Prod.fst)).getD n 0) d)
        ((positions ((offsets n (entries.map Prod.fst)).take n) (entries.map Prod.fst)).zip
          (entries.map Prod.snd)) = buckets n entries := by
  rw [getD_offsets (Nat.le_refl n), ← layout_empty, scatter_layout n d entries _ _ hkeys]
  · simp [layout, buckets]
  · simp
  · intro k hk
    have hread : (offsets n (entries.map Prod.fst)).getD k 0 =
        (entries.map Prod.fst).countP (· < k) := getD_offsets (Nat.le_of_lt hk)
    rw [length_layout_empty]
    rw [List.getD_eq_getElem?_getD] at hread ⊢
    rw [List.getElem?_take_of_lt hk, hread]
    simp

end Layout

section Rows

variable {n : Nat} {entries : List (Nat × β)} {key : α → Nat} {items : List α}

theorem buckets_succ : buckets (n + 1) entries = buckets n entries ++ bucket entries n := by
  simp [buckets, List.range_succ]

theorem bucket_map (f : α → β) (entries : List (Nat × α)) (k : Nat) :
    bucket (entries.map fun entry => (entry.1, f entry.2)) k = (bucket entries k).map f := by
  simp only [bucket, List.filter_map, List.map_map]
  rfl

theorem buckets_map (f : α → β) (entries : List (Nat × α)) :
    buckets n (entries.map fun entry => (entry.1, f entry.2)) = (buckets n entries).map f := by
  rw [buckets, buckets, List.map_flatMap]
  exact List.flatMap_congr fun k _ => bucket_map f entries k

theorem length_bucket (k : Nat) : (bucket entries k).length = (entries.map Prod.fst).count k := by
  rw [bucket, List.length_map, ← List.countP_eq_length_filter, List.count, List.countP_map]
  rfl

theorem length_buckets : (buckets n entries).length = (entries.map Prod.fst).countP (· < n) := by
  induction n with
  | zero => simp [buckets]
  | succ n ih => rw [buckets_succ, List.length_append, ih, length_bucket, countP_lt_succ]

-- The items in the order of their keys, those with one key in the order they came in.
def arrange (n : Nat) (key : α → Nat) (items : List α) : List α :=
  buckets n (items.map fun item => (key item, item))

theorem mem_bucket {k : Nat} {item : α} :
    item ∈ bucket (items.map fun item => (key item, item)) k ↔ item ∈ items ∧ key item = k := by
  simp only [bucket, List.mem_map, List.mem_filter, decide_eq_true_eq]
  constructor
  · rintro ⟨_, ⟨⟨item, hitem, rfl⟩, hkey⟩, rfl⟩
    exact ⟨hitem, hkey⟩
  · rintro ⟨hitem, hkey⟩
    exact ⟨(key item, item), ⟨⟨item, hitem, rfl⟩, hkey⟩, rfl⟩

theorem length_arrange : (arrange n key items).length = (items.map key).countP (· < n) := by
  rw [arrange, length_buckets, List.map_map]
  rfl

theorem bucket_eq_filter (k : Nat) :
    bucket (items.map fun item => (key item, item)) k = items.filter fun item => key item = k := by
  simp only [bucket, List.filter_map, List.map_map]
  exact List.map_id _

private theorem arrange_perm_filter : (arrange n key items).Perm (items.filter fun item => key item < n) := by
  induction n with
  | zero => simp [arrange, buckets]
  | succ n ih =>
      rw [arrange, buckets_succ, bucket_eq_filter]
      refine (ih.append_right _).trans ?_
      have h := List.filter_append_perm (fun item => decide (key item < n))
        (items.filter fun item => key item < n + 1)
      simp only [List.filter_filter] at h
      refine List.Perm.trans (List.Perm.of_eq ?_) h
      congr 1
      · apply List.filter_congr
        intro item _
        by_cases hlt : key item < n
        · simp [hlt, Nat.lt_succ_of_lt hlt]
        · simp [hlt]
      · apply List.filter_congr
        intro item _
        by_cases hlt : key item < n
        · simp [hlt]
          omega
        · simp [hlt]
          omega

theorem arrange_perm (h : ∀ item ∈ items, key item < n) : (arrange n key items).Perm items := by
  refine arrange_perm_filter.trans (List.Perm.of_eq ?_)
  rw [List.filter_eq_self]
  simpa using h

-- Reading the places between two offsets reads the items of one key.
theorem rows_arrange :
    ((List.range n).flatMap fun k =>
      (List.range' ((items.map key).countP (· < k)) ((items.map key).count k)).map fun j =>
        (k, j, (arrange n key items)[j]?)) =
      (arrange n key items).zipIdx.map fun item => (key item.1, item.2, some item.1) := by
  induction n with
  | zero => rfl
  | succ n ih =>
      have hsplit : arrange (n + 1) key items =
          arrange n key items ++ bucket (items.map fun item => (key item, item)) n :=
        buckets_succ
      have hlength : (bucket (items.map fun item => (key item, item)) n).length =
          (items.map key).count n := by
        rw [length_bucket, List.map_map]
        rfl
      rw [hsplit, List.range_succ, List.flatMap_append, List.zipIdx_append, List.map_append, ← ih]
      congr 1
      · apply List.flatMap_congr
        intro k hk
        apply List.map_congr_left
        intro j hj
        rw [List.mem_range] at hk
        rw [List.mem_range'_1, ← countP_lt_succ] at hj
        have hmono : (items.map key).countP (· < k + 1) ≤ (items.map key).countP (· < n) := by
          apply List.countP_mono_left
          intro x _ hx
          simp only [decide_eq_true_eq] at hx ⊢
          omega
        rw [List.getElem?_append_left (by rw [length_arrange]; omega)]
      · rw [List.flatMap_cons, List.flatMap_nil, List.append_nil, ← length_arrange, ← hlength]
        apply List.ext_getElem
        · simp
        · intro i hi hi'
          simp only [List.length_map, List.length_range'] at hi
          have hmem := List.getElem_mem hi
          rw [mem_bucket] at hmem
          simp [hmem.2, List.getElem?_append_right, hi, Nat.add_comm]

end Rows

section Stable

variable {α : Type} {items sorted : List α} {p : α → Bool} {key : α → Nat} {n a : Nat}

-- A rearrangement that keeps the order of some items.
theorem filter_eq_of_sublist (hperm : sorted.Perm items) (hsub : (items.filter p).Sublist sorted) :
    sorted.filter p = items.filter p := by
  have hfilter := hsub.filter p
  simp only [List.filter_filter, Bool.and_self] at hfilter
  exact (hfilter.eq_of_length (hperm.filter p).length_eq.symm).symm

theorem filter_mergeSort {le : α → α → Bool} (htrans : ∀ a b c, le a b → le b c → le a c)
    (htotal : ∀ a b, (le a b || le b a) = true)
    (h : ∀ a ∈ items, ∀ b ∈ items, p a = true → p b = true → le a b = true) :
    (items.mergeSort le).filter p = items.filter p := by
  refine filter_eq_of_sublist (List.mergeSort_perm _ _)
    (List.sublist_mergeSort htrans htotal ?_ List.filter_sublist)
  refine List.pairwise_iff_forall_sublist.mpr fun {x y} hxy => ?_
  have hx := List.mem_filter.mp (hxy.subset List.mem_cons_self)
  have hy := List.mem_filter.mp (hxy.subset (List.mem_cons_of_mem _ List.mem_cons_self))
  exact h x hx.1 y hy.1 hx.2 hy.2

theorem filter_arrange (hkeys : ∀ item ∈ items, key item < n)
    (h : ∀ a ∈ items, ∀ b ∈ items, p a = true → p b = true → key a = key b) :
    (arrange n key items).filter p = items.filter p := by
  refine filter_eq_of_sublist (arrange_perm hkeys) ?_
  cases hsome : items.filter p with
  | nil => exact List.nil_sublist _
  | cons first rest =>
      rw [← hsome]
      have hfirst := List.mem_filter.mp (hsome.symm ▸ List.mem_cons_self : first ∈ items.filter p)
      have hboth : items.filter p = (items.filter fun item => key item = key first).filter p := by
        rw [List.filter_filter]
        refine List.filter_congr fun item hitem => ?_
        cases hp : p item with
        | false => rfl
        | true => simp [h item hitem first hfirst.1 hp hfirst.2]
      have hbucket : (items.filter p).Sublist (items.filter fun item => key item = key first) := by
        rw [hboth]
        exact List.filter_sublist
      rw [← bucket_eq_filter] at hbucket
      refine hbucket.trans ?_
      rw [arrange, buckets, List.flatMap_def]
      exact List.sublist_flatten_of_mem
        (List.mem_map_of_mem (List.mem_range.mpr (hkeys first hfirst.1)))

end Stable

end M1nd.Library.Buckets
