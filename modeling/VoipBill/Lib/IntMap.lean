import Mathlib.Tactic
import Std.Data.ExtTreeMap

/-!
# Ordered maps with integer keys

`std::map<int, T>` is `IntMap T`: the extensional ordered map of the standard
library.  Its lookup lemmas are stated there through a comparison function; the
versions below speak about equality of keys.
-/

namespace VoipBill
namespace Lib

/-- A map from integer keys to rows, iterated in key order. -/
abbrev IntMap (ρ : Type) : Type := Std.ExtTreeMap Int ρ

namespace IntMap

variable {ρ : Type}

@[simp] theorem getElem?_insert (m : IntMap ρ) (k a : Int) (v : ρ) :
    (m.insert k v)[a]? = if k = a then some v else m[a]? := by
  simp [Std.ExtTreeMap.getElem?_insert]

theorem getElem?_insert_self (m : IntMap ρ) (k : Int) (v : ρ) :
    (m.insert k v)[k]? = some v := by
  simp

theorem getElem?_insert_of_ne (m : IntMap ρ) {k a : Int} (h : k ≠ a) (v : ρ) :
    (m.insert k v)[a]? = m[a]? := by
  simp [h]

@[simp] theorem getElem?_erase (m : IntMap ρ) (k a : Int) :
    (m.erase k)[a]? = if k = a then none else m[a]? := by
  simp [Std.ExtTreeMap.getElem?_erase]

/-- Rows of `part` written over the rows of `table`: an insert whose trigger
turns it into an update of the row with the same key. -/
def upsert (table part : IntMap ρ) : IntMap ρ := table ∪ part

@[simp] theorem getElem?_upsert (table part : IntMap ρ) (k : Int) :
    (upsert table part)[k]? = part[k]?.or table[k]? := by
  simp [upsert, Std.ExtTreeMap.getElem?_union]

@[simp] theorem upsert_empty (table : IntMap ρ) : upsert table ∅ = table := by
  apply Std.ExtTreeMap.ext_getElem?
  intro k
  simp

/-- Writing one more row into the part writes it into the table. -/
theorem upsert_insert (table part : IntMap ρ) (k : Int) (v : ρ) :
    upsert table (part.insert k v) = (upsert table part).insert k v := by
  apply Std.ExtTreeMap.ext_getElem?
  intro a
  simp only [getElem?_upsert, getElem?_insert]
  split <;> simp

/-! ## Tables of rows -/

/-- Append the rows of every key of `queries` to the table of that key. -/
def appendRows (tables queries : IntMap (List ρ)) : IntMap (List ρ) :=
  queries.toList.foldl (fun t q => t.insert q.1 (t[q.1]?.getD [] ++ q.2)) tables

@[simp] theorem appendRows_empty (tables : IntMap (List ρ)) : appendRows tables ∅ = tables := by
  rw [appendRows, Std.ExtTreeMap.toList_eq_nil_iff.mpr rfl, List.foldl_nil]

theorem getElem?_foldl_append (qs : List (Int × List ρ)) (tables : IntMap (List ρ)) (k : Int) :
    (qs.foldl (fun t q => t.insert q.1 (t[q.1]?.getD [] ++ q.2)) tables)[k]?.getD [] =
      tables[k]?.getD [] ++ ((qs.filter fun q => q.1 = k).map Prod.snd).flatten := by
  induction qs generalizing tables with
  | nil => simp
  | cons q qs ih =>
      rw [List.foldl_cons, ih, getElem?_insert]
      by_cases hq : q.1 = k
      · simp [hq]
      · simp [hq]

/-- Keys are distinct, so filtering by a key leaves the entry of that key. -/
theorem flatten_filter_toList (queries : IntMap (List ρ)) (k : Int) :
    ((queries.toList.filter fun q => q.1 = k).map Prod.snd).flatten = queries[k]?.getD [] := by
  have hdistinct : queries.toList.Pairwise fun a b => a.1 ≠ b.1 := by
    refine Std.ExtTreeMap.distinct_keys_toList.imp ?_
    intro a b h heq
    exact h (by simp [heq])
  have hfilter : ∀ qs : List (Int × List ρ), (qs.Pairwise fun a b => a.1 ≠ b.1) →
      ((qs.filter fun q => q.1 = k).map Prod.snd).flatten =
        ((qs.find? fun q => q.1 = k).map Prod.snd).getD [] := by
    intro qs hqs
    induction qs with
    | nil => rfl
    | cons q qs ih =>
        rw [List.pairwise_cons] at hqs
        by_cases hq : q.1 = k
        · have hrest : qs.filter (fun q => q.1 = k) = [] := by
            rw [List.filter_eq_nil_iff]
            intro b hb
            simpa [hq] using (hqs.1 b hb).symm
          simp [hq, hrest]
        · simpa [hq] using ih hqs.2
  rw [hfilter _ hdistinct]
  cases hfind : queries.toList.find? (fun q => q.1 = k) with
  | none =>
      have hnone : queries[k]? = none := by
        by_contra hsome
        obtain ⟨rows, hrows⟩ := Option.ne_none_iff_exists'.mp hsome
        have hmem := Std.ExtTreeMap.mem_toList_iff_getElem?_eq_some.mpr hrows
        simpa using List.find?_eq_none.mp hfind _ hmem
      simp [hnone]
  | some q =>
      have hkey : q.1 = k := by simpa using List.find?_some hfind
      have hrows := Std.ExtTreeMap.mem_toList_iff_getElem?_eq_some.mp (List.mem_of_find?_eq_some hfind)
      rw [hkey] at hrows
      simp [hrows]

/-- Every table grows by the rows of its query. -/
theorem getElem?_appendRows (tables queries : IntMap (List ρ)) (k : Int) :
    (appendRows tables queries)[k]?.getD [] = tables[k]?.getD [] ++ queries[k]?.getD [] := by
  rw [appendRows, getElem?_foldl_append, flatten_filter_toList]

/-! ## All rows of a table of tables -/

theorem nodup_toList (m : IntMap ρ) : m.toList.Nodup := by
  refine Std.ExtTreeMap.distinct_keys_toList.imp ?_
  intro a b h heq
  exact h (by simp [heq])

/-- Entries of the other keys. -/
def others (m : IntMap ρ) (k : Int) : List (Int × ρ) := m.toList.filter fun q => q.1 ≠ k

/-- The entry of a key, moved to the front. -/
theorem toList_perm (m : IntMap ρ) (k : Int) :
    m.toList.Perm ((m[k]?.map (Prod.mk k)).toList ++ others m k) := by
  rw [List.perm_ext_iff_of_nodup (nodup_toList m)]
  · rintro ⟨a, v⟩
    by_cases ha : a = k
    · subst ha
      simp [others, Std.ExtTreeMap.mem_toList_iff_getElem?_eq_some]
    · simp [others, Std.ExtTreeMap.mem_toList_iff_getElem?_eq_some, ha, Ne.symm ha]
  · rw [List.nodup_append]
    refine ⟨by cases m[k]? <;> simp, (nodup_toList m).filter _, ?_⟩
    rintro ⟨a, v⟩ hfront b hb rfl
    simp only [Option.toList_map, List.mem_map, Prod.mk.injEq, others, List.mem_filter,
      decide_eq_true_eq] at hfront hb
    obtain ⟨_, -, rfl, -⟩ := hfront
    exact hb.2 rfl

theorem perm_others_insert (m : IntMap ρ) (k : Int) (v : ρ) :
    (others (m.insert k v) k).Perm (others m k) := by
  refine (List.perm_ext_iff_of_nodup ((nodup_toList _).filter _)
    ((nodup_toList m).filter _)).mpr ?_
  rintro ⟨a, w⟩
  simp only [List.mem_filter, Std.ExtTreeMap.mem_toList_iff_getElem?_eq_some, getElem?_insert]
  refine and_congr_left fun ha => ?_
  rw [if_neg (Ne.symm (of_decide_eq_true ha))]

/-- The rows of all tables. -/
def allRows (tables : IntMap (List ρ)) : List ρ := (tables.toList.map Prod.snd).flatten

theorem perm_allRows (tables : IntMap (List ρ)) (k : Int) :
    (allRows tables).Perm (tables[k]?.getD [] ++ ((others tables k).map Prod.snd).flatten) := by
  have hperm := ((toList_perm tables k).map Prod.snd).flatten
  cases hk : tables[k]? with
  | none => simpa [hk, allRows] using hperm
  | some rows => simpa [hk, allRows] using hperm

/-- Rows appended to the table of one key. -/
theorem perm_allRows_insert (tables : IntMap (List ρ)) (k : Int) (rows : List ρ) :
    (allRows (tables.insert k (tables[k]?.getD [] ++ rows))).Perm (allRows tables ++ rows) := by
  have hinsert := perm_allRows (tables.insert k (tables[k]?.getD [] ++ rows)) k
  have hothers := ((perm_others_insert tables k (tables[k]?.getD [] ++ rows)).map Prod.snd).flatten
  rw [getElem?_insert_self, Option.getD_some] at hinsert
  have hswap : (tables[k]?.getD [] ++ rows ++ ((others tables k).map Prod.snd).flatten).Perm
      (tables[k]?.getD [] ++ ((others tables k).map Prod.snd).flatten ++ rows) := by
    rw [List.append_assoc, List.append_assoc]
    exact List.perm_append_comm.append_left _
  exact hinsert.trans ((hothers.append_left _).trans
    (hswap.trans ((perm_allRows tables k).append_right rows).symm))

/-- Appending neither loses nor repeats a row. -/
theorem perm_allRows_appendRows (tables queries : IntMap (List ρ)) :
    (allRows (appendRows tables queries)).Perm (allRows tables ++ allRows queries) := by
  have hfold : ∀ (qs : List (Int × List ρ)) (tables : IntMap (List ρ)),
      (allRows (qs.foldl (fun t q => t.insert q.1 (t[q.1]?.getD [] ++ q.2)) tables)).Perm
        (allRows tables ++ (qs.map Prod.snd).flatten) := by
    intro qs
    induction qs with
    | nil => intro tables; simp
    | cons q qs ih =>
        intro tables
        have hrest := (perm_allRows_insert tables q.1 q.2).append_right ((qs.map Prod.snd).flatten)
        simpa [List.append_assoc] using (ih _).trans hrest
  exact hfold queries.toList tables

end IntMap
end Lib
end VoipBill
