import ScriptValue.Coercion.Convert
import ScriptValue.Date.Reader
import ScriptValue.Proofs.Value.Same

namespace ScriptValue.Dictionary

section

variable [DateLibrary]

variable {a b c d : Dictionary} {v w : Value}

theorem distinct_nil : Distinct [] := distinct_iff.2 ⟨List.nodup_nil, List.forall_mem_nil _⟩

theorem distinct_ofList {es : Dictionary} (h : ∀ e ∈ es, e.2.Distinct) :
    Distinct (Entries.ofList es) :=
  distinct_iff.2 ⟨Entries.nodup_keys_ofList es, fun e he => h e (Entries.mem_of_mem_ofList he)⟩

namespace Distinct

theorem insert (ha : a.Distinct) (hv : v.Distinct) (k : Text) : Distinct (a.insert k v) := by
  refine distinct_iff.2 ⟨Entries.nodup_keys_insert k v ha.nodup, fun e he => ?_⟩
  rcases Entries.mem_of_mem_insert he with rfl | he
  · exact hv
  · exact (distinct_iff.1 ha).2 e he

theorem erase (ha : a.Distinct) (k : Text) : Distinct (a.erase k) :=
  distinct_iff.2 ⟨Entries.nodup_keys_erase k ha.nodup,
    fun e he => (distinct_iff.1 ha).2 e (Entries.mem_of_mem_erase he)⟩

theorem merge (ha : a.Distinct) (hb : b.Distinct) : Distinct (a.merge b) := by
  refine distinct_iff.2 ⟨Entries.nodup_keys_merge hb.nodup ha.nodup, fun e he => ?_⟩
  rcases Entries.mem_of_mem_merge he with he | he
  · exact (distinct_iff.1 ha).2 e he
  · exact (distinct_iff.1 hb).2 e he

theorem same_insert (ha : a.Distinct) (hb : b.Distinct) (hv : v.Distinct) (hw : w.Distinct)
    (hab : a.same b = true) (hvw : v.same w = true) (k : Text) :
    Dictionary.same (a.insert k v) (b.insert k w) = true := by
  rw [same_iff ha.nodup hb.nodup] at hab
  rw [same_iff (ha.insert hv k).nodup (hb.insert hw k).nodup]
  exact hab.insert hvw k

theorem same_erase (ha : a.Distinct) (hb : b.Distinct) (hab : a.same b = true) (k : Text) :
    Dictionary.same (a.erase k) (b.erase k) = true := by
  rw [same_iff ha.nodup hb.nodup] at hab
  rw [same_iff (ha.erase k).nodup (hb.erase k).nodup]
  exact hab.erase ha.nodup hb.nodup k

theorem same_merge (ha : a.Distinct) (hb : b.Distinct) (hc : c.Distinct) (hd : d.Distinct)
    (hab : a.same b = true) (hcd : c.same d = true) :
    Dictionary.same (a.merge c) (b.merge d) = true := by
  rw [same_iff ha.nodup hb.nodup] at hab
  rw [same_iff hc.nodup hd.nodup] at hcd
  rw [same_iff (ha.merge hc).nodup (hb.merge hd).nodup]
  exact hab.merge hcd hc.nodup hd.nodup

end Distinct

theorem convertBoth_dictionary (ctx : Context) (a b : Dictionary) :
    ctx.convertBoth .dictionary (.dictionary a) (.dictionary b) = .ok (a.merge b) := rfl

/--
What a dictionary has under each key and the order of its keys, after a key was set or removed and
after two dictionaries were merged. Merging is associative and does nothing where either dictionary
is empty or both are one; and dictionaries that are the same apart from the order at any depth,
which is an equivalence, stay the same.
-/
theorem ordered_map (ha : a.Distinct) (hb : b.Distinct) (hc : c.Distinct) (hd : d.Distinct)
    (hv : v.Distinct) (hw : w.Distinct) (k : Text) :
    (Distinct [] ∧ (∀ es : Dictionary, (Entries.keys (Entries.ofList es)).Nodup ∧
        ((∀ e ∈ es, e.2.Distinct) → Distinct (Entries.ofList es))) ∧
      Distinct (a.insert k v) ∧ Distinct (a.erase k) ∧ Distinct (a.merge b)) ∧
    ((a.insert k v).keys = (if k ∈ a.keys then a.keys else a.keys ++ [k]) ∧
      ∀ j, (a.insert k v).get? j = if k = j then some v else a.get? j) ∧
    ((a.erase k).keys = a.keys.erase k ∧
      ∀ j, (a.erase k).get? j = if k = j then none else a.get? j) ∧
    ((a.merge b).keys = a.keys ++ b.keys.filter (· ∉ a.keys) ∧
      (∀ j, (a.merge b).get? j = (b.get? j).or (a.get? j)) ∧
      (∀ ctx : Context,
        ctx.convertBoth .dictionary (.dictionary a) (.dictionary b) = .ok (a.merge b))) ∧
    ((a.merge b).merge c = a.merge (b.merge c) ∧ a.merge [] = a ∧ Entries.merge [] a = a ∧
      a.merge a = a) ∧
    (a.same a = true ∧ (a.same b = true → b.same a = true) ∧
      (a.same b = true → b.same c = true → a.same c = true) ∧
      (a.same b = true ↔
        ∀ j, Option.Rel (fun x y => x.same y = true) (a.get? j) (b.get? j))) ∧
    (a.same b = true →
      (v.same w = true → Dictionary.same (a.insert k v) (b.insert k w) = true) ∧
      Dictionary.same (a.erase k) (b.erase k) = true ∧
      (c.same d = true → Dictionary.same (a.merge c) (b.merge d) = true)) := by
  refine ⟨⟨distinct_nil, fun es => ⟨Entries.nodup_keys_ofList es, distinct_ofList⟩, ha.insert hv k,
    ha.erase k, ha.merge hb⟩, ?_, ?_, ?_, ?_, ?_, fun hab => ?_⟩
  · exact ⟨Entries.keys_insert k v a, fun j => Entries.get?_insert k j v a⟩
  · exact ⟨Entries.keys_erase k a, fun j => Entries.get?_erase k j ha.nodup⟩
  · exact ⟨Entries.keys_merge hb.nodup a, Entries.get?_merge hb.nodup a,
      fun ctx => convertBoth_dictionary ctx a b⟩
  · exact ⟨Entries.merge_assoc hb.nodup ha.nodup hc.nodup, Entries.merge_nil a,
      Entries.nil_merge a, Entries.merge_self ha.nodup⟩
  · exact ⟨ha.same_self, ha.same_symm hb, ha.same_trans hb hc, same_iff ha.nodup hb.nodup⟩
  · exact ⟨fun hvw => ha.same_insert hb hv hw hab hvw k, ha.same_erase hb hab k,
      ha.same_merge hb hc hd hab⟩

end

theorem ordered_map_nested :
    let m : Dictionary := [(['p'], .text ['1']), (['q'], .empty)]
    let n : Dictionary := [(['q'], .empty), (['p'], .text ['1'])]
    let a : Dictionary := [(['x'], .dictionary m), (['y'], .integer .nan)]
    let b : Dictionary := [(['y'], .integer .nan), (['x'], .dictionary n)]
    let c : Dictionary := [(['z'], .list []), (['x'], .empty)]
    let d : Dictionary := [(['x'], .empty), (['z'], .list [])]
    a.Distinct ∧ b.Distinct ∧ c.Distinct ∧ d.Distinct ∧
      Value.Distinct (.dictionary m) ∧ Value.Distinct (.dictionary n) ∧
      (a.merge c).keys = [['x'], ['y'], ['z']] ∧ (c.merge a).keys = [['z'], ['x'], ['y']] ∧
      a.same b = true ∧ c.same d = true ∧ b.same a = true ∧
      Dictionary.same (a.merge c) (b.merge d) = true ∧
      Dictionary.same (a.insert ['y'] (.dictionary m)) (b.insert ['y'] (.dictionary n)) = true := by
  intro m n a b c d
  have hpair {k k' : Text} {x y : Value} (hk : k ≠ k') (hx : x.Distinct) (hy : y.Distinct) :
      Distinct [(k, x), (k', y)] :=
    distinct_iff.2 ⟨by simpa using hk, by simp [hx, hy]⟩
  have hm : m.Distinct := hpair (by decide) (.text _) .empty
  have hn : n.Distinct := hpair (by decide) .empty (.text _)
  have ha : a.Distinct := hpair (by decide) hm (.integer _)
  have hb : b.Distinct := hpair (by decide) (.integer _) hn
  have hc : c.Distinct := hpair (by decide) (.list (List.forall_mem_nil _)) .empty
  have hd : d.Distinct := hpair (by decide) .empty (.list (List.forall_mem_nil _))
  have hab : a.same b = true := by decide
  have hcd : c.same d = true := by decide
  obtain ⟨-, -, -, -, -, ⟨-, hsymm, -⟩, hcongr⟩ := ordered_map ha hb hc hd hm hn ['y']
  obtain ⟨hinsert, -, hmerge⟩ := hcongr hab
  exact ⟨ha, hb, hc, hd, hm, hn, by decide, by decide, hab, hcd, hsymm hab, hmerge hcd,
    hinsert (by decide)⟩

end ScriptValue.Dictionary
