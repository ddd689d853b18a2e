import ScriptValue.Date.Reader
import ScriptValue.Proofs.Coercion.Joining
import ScriptValue.Proofs.Store.Alike

/-!
Entries of entries of a dictionary. A path of keys leads from a value to another by way of the
dictionaries that the values on it are turned into. What is written where a path leads is what is
read there then, and what other paths lead to stays as it is.
-/

namespace ScriptValue

section

variable [DateLibrary]

namespace Value

def entryAt (name : Text) (path : List Text) : Value := chain name (path.reverse.map .key)

theorem entryAt_concat (name : Text) (path : List Text) (k : Text) :
    entryAt name (path ++ [k]) = .part (entryAt name path) (.key k) := by
  simp [entryAt, chain]

theorem kind_entryAt (name : Text) (path : List Text) : (entryAt name path).kind = .container :=
  kind_chain name _

theorem Plain.entry {d : Dictionary} (h : (Value.dictionary d).Plain) (k : Text) :
    ((d.get? k).getD .empty).Plain := by
  cases h with
  | dictionary h =>
    cases hk : d.get? k with
    | none => exact .empty
    | some v => exact h _ (Entries.mem_of_get? hk)

/--
A value from which a path is followed without a container being read. Whatever is turned into a
dictionary on the way is plain or a dictionary already; what the path leads to need not be plain.
-/
inductive Clear : Value → List Text → Prop
  | plain {v} (h : v.Plain) (path) : Clear v path
  | last {v} (h : v.container? = none) : Clear v []
  | entry {es : Dictionary} {k path} (h : Clear ((es.get? k).getD .empty) path) :
      Clear (.dictionary es) (k :: path)

variable {v : Value} {k : Text} {path rest : List Text}

theorem Clear.container?_eq_none (h : Clear v path) : v.container? = none := by
  cases h with
  | plain h => exact h.container?_eq_none
  | last h => exact h
  | entry => rfl

theorem Clear.of_append (h : Clear v (path ++ rest)) : Clear v path := by
  induction path generalizing v with
  | nil => exact .last h.container?_eq_none
  | cons k path ih =>
    cases h with
    | plain h => exact .plain h _
    | entry h => exact .entry (ih h)

end Value

open Value

namespace Access

variable {a b : Access} {u v w x : Value} {d : Dictionary} {k : Text} {path rest p q : List Text}

theorem plain_of_convertWhole (hv : v.Plain) (hd : a.convertWhole .dictionary v = .ok d) :
    (Value.dictionary d).Plain := by
  cases hgiven : Target.dictionary.given? v with
  | none =>
    rw [convertWhole_of_none hgiven] at hd
    obtain ⟨t, -, hd⟩ := exists_of_bind_eq_ok hd
    exact (tree_of_ofText hd).plain
  | some es =>
    rw [convertWhole_of_some hgiven] at hd
    cases hd
    by_cases hempty : v.isEmpty = true
    · obtain rfl | rfl := isEmpty_iff.1 hempty <;> cases hgiven <;>
        exact .dictionary (List.forall_mem_nil _)
    · cases hv with
      | dictionary h =>
        cases hgiven
        exact .dictionary h
      | _ => simp [Target.given?, Target.dictionary, hempty] at hgiven

theorem exists_of_convertOnly {α : Type} {T : Target α} {vs : List Value} {y : α}
    (h : a.convertOnly T vs = some y) : ∃ v, vs = [v] ∧ a.convertValue T v = .ok y := by
  rcases vs with _ | ⟨v, _ | ⟨w, vs⟩⟩
  · cases h
  · rw [convertOnly] at h
    split at h
    · cases hv : a.convertValue T v with
      | error =>
        rw [hv] at h
        cases h
      | ok =>
        rw [hv] at h
        cases h
        exact ⟨v, rfl, hv⟩
    · cases h
  · cases h

theorem plain_of_convertValue (hv : v.Plain) (hd : a.convertValue .dictionary v = .ok d) :
    (Value.dictionary d).Plain := by
  induction hv with
  | @list vs hvs ih =>
    rw [convertValue] at hd
    split at hd
    case h_1 es honly =>
      cases hd
      obtain ⟨v, rfl, hv⟩ := exists_of_convertOnly honly
      exact ih v List.mem_cons_self hv
    case h_2 => exact plain_of_convertWhole (.list hvs) hd
  | dictionary h =>
    cases hd
    exact .dictionary h
  | empty => exact plain_of_convertWhole (a := a) .empty hd
  | text t => exact plain_of_convertWhole (.text t) hd
  | integer n => exact plain_of_convertWhole (.integer n) hd
  | decimal n => exact plain_of_convertWhole (.decimal n) hd
  | boolean b => exact plain_of_convertWhole (.boolean b) hd
  | binary bs => exact plain_of_convertWhole (.binary bs) hd
  | date t => exact plain_of_convertWhole (.date t) hd

theorem convertValue_dictionary (a : Access) (d : Dictionary) :
    a.convertValue .dictionary (.dictionary d) = .ok d := rfl

theorem clear_entry (h : Clear v (k :: path)) (hd : a.convertValue .dictionary v = .ok d) :
    Clear ((d.get? k).getD .empty) path := by
  cases h with
  | plain h => exact .plain ((plain_of_convertValue h hd).entry k) path
  | entry h =>
    cases hd
    exact h

theorem convertValue_clear (hconfig : a.config = b.config) (h : Clear v (k :: path)) :
    a.convertValue .dictionary v = b.convertValue .dictionary v := by
  cases h with
  | plain h => exact convertValue_congr hconfig h
  | entry => rfl

def follow (a : Access) (v : Value) (path : List Text) : Except ValueError Value :=
  path.foldlM (fun v k => a.readPart v (.key k)) v

def overwrite (a : Access) (new : Value) : Value → List Text → Except ValueError Value
  | _, [] => .ok new
  | v, k :: path => do
    let d ← a.convertValue .dictionary v
    let entry ← overwrite a new ((d.get? k).getD .empty) path
    return .dictionary (d.insert k entry)

theorem readPart_key (a : Access) (v : Value) (k : Text) :
    a.readPart v (.key k) = a.convertValue .dictionary v >>= fun d =>
      .ok ((d.get? k).getD .empty) := rfl

theorem follow_nil (a : Access) (v : Value) : a.follow v [] = .ok v := rfl

theorem follow_cons (a : Access) (v : Value) (k : Text) (path : List Text) :
    a.follow v (k :: path) = a.convertValue .dictionary v >>= fun d =>
      a.follow ((d.get? k).getD .empty) path := by
  simp only [follow, List.foldlM_cons, readPart_key, bind_assoc, ok_bind]

theorem follow_concat (a : Access) (v : Value) (path : List Text) (k : Text) :
    a.follow v (path ++ [k]) = a.follow v path >>= fun w => a.readPart w (.key k) := by
  simp only [follow, List.foldlM_append, List.foldlM_cons, List.foldlM_nil, bind_pure]

theorem clear_follow (h : Clear v (path ++ rest)) (hw : a.follow v path = .ok w) :
    Clear w rest := by
  induction path generalizing v with
  | nil =>
    cases hw
    exact h
  | cons k path ih =>
    rw [follow_cons] at hw
    obtain ⟨d, hd, hw⟩ := exists_of_bind_eq_ok hw
    exact ih (clear_entry h hd) hw

theorem follow_clear (hconfig : a.config = b.config) (h : Clear v path) :
    a.follow v path = b.follow v path := by
  induction path generalizing v with
  | nil => rw [follow_nil, follow_nil]
  | cons k path ih =>
    rw [follow_cons, follow_cons, convertValue_clear hconfig h]
    cases hd : b.convertValue .dictionary v with
    | error => rw [error_bind, error_bind]
    | ok d =>
      rw [ok_bind, ok_bind]
      exact ih (clear_entry h hd)

theorem overwrite_cons (a : Access) (u v : Value) (k : Text) (path : List Text) :
    a.overwrite u v (k :: path) = a.convertValue .dictionary v >>= fun d =>
      a.overwrite u ((d.get? k).getD .empty) path >>= fun entry =>
        .ok (.dictionary (d.insert k entry)) := rfl

theorem overwrite_concat (a : Access) (u v : Value) (path : List Text) (k : Text) :
    a.overwrite u v (path ++ [k]) = a.follow v path >>= fun w =>
      a.convertValue .dictionary w >>= fun d =>
        a.overwrite (.dictionary (d.insert k u)) v path := by
  induction path generalizing v with
  | nil => rfl
  | cons l path ih =>
    rw [List.cons_append, overwrite_cons, follow_cons]
    simp only [overwrite_cons]
    cases hd : a.convertValue .dictionary v with
    | error => simp only [error_bind]
    | ok d => simp only [ok_bind, ih, bind_assoc]

theorem overwrite_cons_eq_ok_iff :
    a.overwrite u v (k :: path) = .ok x ↔ ∃ d entry, a.convertValue .dictionary v = .ok d ∧
      a.overwrite u ((d.get? k).getD .empty) path = .ok entry ∧
      x = .dictionary (d.insert k entry) := by
  rw [overwrite_cons]
  constructor
  · intro h
    obtain ⟨d, hd, h⟩ := exists_of_bind_eq_ok h
    obtain ⟨entry, hentry, h⟩ := exists_of_bind_eq_ok h
    exact ⟨d, entry, hd, hentry, (Except.ok.inj h).symm⟩
  · rintro ⟨d, entry, hd, hentry, rfl⟩
    rw [hd, ok_bind, hentry, ok_bind]

theorem exists_overwrite_iff (a : Access) (u v : Value) (path : List Text) :
    (∃ x, a.overwrite u v path = .ok x) ↔ ∃ w, a.follow v path = .ok w := by
  induction path generalizing v with
  | nil => exact ⟨fun _ => ⟨v, rfl⟩, fun _ => ⟨u, rfl⟩⟩
  | cons k path ih =>
    constructor
    · rintro ⟨x, hx⟩
      obtain ⟨d, entry, hd, hentry, -⟩ := overwrite_cons_eq_ok_iff.1 hx
      rw [follow_cons, hd]
      exact (ih _).1 ⟨entry, hentry⟩
    · rintro ⟨w, hw⟩
      rw [follow_cons] at hw
      obtain ⟨d, hd, hw⟩ := exists_of_bind_eq_ok hw
      obtain ⟨entry, hentry⟩ := (ih _).2 ⟨w, hw⟩
      exact ⟨_, overwrite_cons_eq_ok_iff.2 ⟨d, entry, hd, hentry, rfl⟩⟩

theorem eq_dictionary_of_overwrite (hne : path ≠ []) (h : a.overwrite u v path = .ok x) :
    ∃ d, x = .dictionary d := by
  cases path with
  | nil => exact absurd rfl hne
  | cons k path =>
    obtain ⟨d, entry, -, -, rfl⟩ := overwrite_cons_eq_ok_iff.1 h
    exact ⟨_, rfl⟩

theorem follow_insert (a : Access) (d : Dictionary) (k l : Text) (v : Value) (path : List Text) :
    a.follow (.dictionary (d.insert k v)) (l :: path) =
      a.follow (if k = l then v else (d.get? l).getD .empty) path := by
  rw [follow_cons, convertValue_dictionary, ok_bind, Entries.get?_insert]
  split <;> rfl

theorem follow_overwrite (h : a.overwrite u v p = .ok x) : a.follow x p = .ok u := by
  induction p generalizing v x with
  | nil =>
    cases h
    rfl
  | cons k p ih =>
    obtain ⟨d, entry, -, hentry, rfl⟩ := overwrite_cons_eq_ok_iff.1 h
    rw [follow_insert, if_pos rfl]
    exact ih hentry

theorem follow_overwrite_of_not_prefix (h : a.overwrite u v p = .ok x) (hpq : ¬ p <+: q)
    (hqp : ¬ q <+: p) : a.follow x q = a.follow v q := by
  induction p generalizing v x q with
  | nil => exact absurd List.nil_prefix hpq
  | cons k p ih =>
    cases q with
    | nil => exact absurd List.nil_prefix hqp
    | cons l q =>
      obtain ⟨d, entry, hd, hentry, rfl⟩ := overwrite_cons_eq_ok_iff.1 h
      rw [follow_insert, follow_cons, hd]
      split
      case isTrue hkl =>
        -- the paths part further on, if they share this key
        subst hkl
        rw [List.cons_prefix_cons, not_and] at hpq hqp
        exact ih hentry (hpq rfl) (hqp rfl)
      case isFalse => rfl

theorem clear_overwrite (hv : v.Plain) (hu : u.container? = none)
    (h : a.overwrite u v p = .ok x) (hq : p <+: q → q = p) : Clear x q := by
  induction p generalizing v x q with
  | nil =>
    cases h
    rw [hq List.nil_prefix]
    exact .last hu
  | cons k p ih =>
    obtain ⟨d, entry, hd, hentry, rfl⟩ := overwrite_cons_eq_ok_iff.1 h
    have hplain := plain_of_convertValue hv hd
    cases q with
    | nil => exact .last rfl
    | cons l q =>
      refine .entry ?_
      rw [Entries.get?_insert]
      split
      case isTrue hkl =>
        subst hkl
        rw [List.cons_prefix_cons, List.cons.injEq] at hq
        exact ih (hplain.entry k) hentry fun hpq => (hq ⟨rfl, hpq⟩).2
      case isFalse => exact .plain (hplain.entry l) q

theorem resolve_eq_read {c : Container} (h : ∀ w, a.read c = .ok w → w.container? = none) :
    a.resolve c.toValue = a.read c := by
  cases hc : a.read c with
  | error =>
    rw [resolve_toValue, hc]
    rfl
  | ok w =>
    refine resolve_of_read ?_ hc (h w hc)
    cases c <;> rfl

theorem currentParent_entryAt (a : Access) (name : Text) (hne : path ≠ []) :
    a.currentParent (.entryAt name path) = a.resolve (.entryAt name path) := by
  cases path with
  | nil => exact absurd rfl hne
  | cons k path =>
    rw [entryAt, List.reverse_cons, List.map_append]
    exact currentParent_chain a name _ (.key k)

theorem written_key_into (hv : v.container? = none) (hu : u.container? = none) :
    a.written v (.key k) u .into = a.convertValue .dictionary v >>= fun d =>
      .ok (.dictionary (d.insert k u)) := by
  rw [written_key hv]
  simp only [writtenEntry, contents, hu]
  rfl

end Access

namespace Context

variable {ctx : Context} {name : Text} {v : Value} {path : List Text} {n : Nat}

theorem read_entryAt (h : (ctx.access n).resolve (.entryAt name path) = ctx.outer.follow v path)
    {k : Text} (hv : Clear v (path ++ [k])) :
    (ctx.access (n + 1)).read (.part (.entryAt name path) (.key k)) =
      ctx.outer.follow v (path ++ [k]) := by
  rw [read_part, h, Access.follow_concat]
  cases hw : ctx.outer.follow v path with
  | error => rw [error_bind, error_bind]
  | ok w =>
    have hconvert := Access.convertValue_clear (a := ctx.access n) (b := ctx.outer) (by simp)
      (Access.clear_follow hv hw)
    rw [ok_bind, ok_bind, Access.readPart_key, Access.readPart_key, hconvert]

theorem resolve_entryAt (hname : ctx.lookup? name = some v) (hv : Clear v path)
    (hn : path.length ≤ n) :
    (ctx.access n).resolve (.entryAt name path) = ctx.outer.follow v path := by
  induction path using List.reverseRecOn generalizing n with
  | nil =>
    refine Access.resolve_of_read rfl ?_ hv.container?_eq_none
    rw [read_variable, hname]
    rfl
  | append_singleton path k ih =>
    rw [List.length_append] at hn
    cases n with
    | zero => cases hn
    | succ n =>
      have hread := read_entryAt (ih hv.of_append (Nat.le_of_succ_le_succ hn)) hv
      rw [entryAt_concat, ← hread]
      refine Access.resolve_eq_read (c := .part _ _) fun w hw => ?_
      rw [hread] at hw
      have hclear : Clear w [] := Access.clear_follow (by rwa [List.append_nil]) hw
      exact hclear.container?_eq_none

theorem resolve_entryAt_tooDeep (ctx : Context) (name : Text) (hn : n < path.length) :
    (ctx.access n).resolve (.entryAt name path) = .error .tooDeep := by
  induction path using List.reverseRecOn generalizing n with
  | nil => cases hn
  | append_singleton path k ih =>
    rw [entryAt_concat]
    refine (Access.resolve_toValue _ (.part _ _)).trans ?_
    cases n with
    | zero => rfl
    | succ n =>
      rw [read_part, ih (by simpa using hn)]
      rfl

theorem currentParent_entryAt (hname : ctx.lookup? name = some v) (hv : Clear v path)
    (hn : path.length ≤ n) :
    (ctx.access n).currentParent (.entryAt name path) = ctx.outer.follow v path := by
  by_cases hne : path = []
  · subst hne
    have hlookup : (ctx.access n).context.lookup? name = some v := by rw [context_access, hname]
    exact (Access.currentParent_variable hlookup).trans
      (Access.resolve_of_none _ hv.container?_eq_none)
  · rw [Access.currentParent_entryAt _ name hne, resolve_entryAt hname hv hn]

theorem value_entryAt (hname : ctx.lookup? name = some v) (hv : Clear v path) (hne : path ≠ [])
    (hlen : path.length ≤ maxDepth) :
    ctx.value (.entryAt name path) = ctx.outer.follow v path := by
  cases path using List.reverseRecOn with
  | nil => exact absurd rfl hne
  | append_singleton path k =>
    rw [List.length_append] at hlen
    rw [entryAt_concat]
    exact read_entryAt (resolve_entryAt hname hv.of_append (Nat.le_of_succ_le_succ hlen)) hv

theorem value_entryAt_tooDeep (ctx : Context) (name : Text) (hlen : maxDepth < path.length) :
    ctx.value (.entryAt name path) = .error .tooDeep := by
  cases path using List.reverseRecOn with
  | nil => cases hlen
  | append_singleton path k =>
    rw [List.length_append] at hlen
    rw [entryAt_concat]
    change (ctx.access (63 + 1)).read (.part _ _) = _
    rw [read_part, resolve_entryAt_tooDeep ctx name (Nat.lt_of_succ_lt_succ hlen)]
    rfl

end Context

namespace Store

variable {s s' : Store} {name : Text} {u v w : Value} {path p : List Text}

theorem write_entryAt (hget : s.get? name = some v) (hv : Clear v path)
    (hlen : path.length ≤ maxDepth) (hu : u.container? = none) :
    s.write (.entryAt name path) u .into =
      s.context.outer.overwrite u v path >>= s.set name := by
  induction path using List.reverseRecOn generalizing u with
  | nil => rfl
  | append_singleton path k ih =>
    rw [List.length_append] at hlen
    -- the write takes a level itself, and the path to the parent is followed on those that are left
    have hparent : s.context.within.currentParent (.entryAt name path) =
        s.context.outer.follow v path :=
      Context.currentParent_entryAt hget hv.of_append (Nat.le_of_succ_le_succ hlen)
    rw [entryAt_concat, write, Access.written_eq_bind, hparent, Access.overwrite_concat]
    cases hw : s.context.outer.follow v path with
    | error => rfl
    | ok w =>
      have hclear := Access.clear_follow hv hw
      have hconvert := Access.convertValue_clear (a := s.context.within) (b := s.context.outer)
        (by simp) hclear
      rw [ok_bind, ok_bind, Access.written_key_into hclear.container?_eq_none hu, hconvert]
      cases s.context.outer.convertValue .dictionary w with
      | error => rfl
      | ok d =>
        exact (if_pos (kind_entryAt name path)).trans
          (ih hv.of_append (Nat.le_of_succ_le hlen) rfl)

theorem write_entryAt_tooDeep (s : Store) (name : Text) (u : Value) (p : Preposition)
    (hlen : maxDepth < path.length) :
    s.write (.entryAt name path) u p = .error .tooDeep := by
  cases path using List.reverseRecOn with
  | nil => cases hlen
  | append_singleton path k =>
    rw [List.length_append] at hlen
    have hlen : maxDepth - 1 < path.length := Nat.lt_of_succ_lt_succ hlen
    have hne : path ≠ [] := List.ne_nil_of_length_pos (Nat.zero_lt_of_lt hlen)
    have hparent : s.context.within.currentParent (.entryAt name path) = .error .tooDeep :=
      (Access.currentParent_entryAt _ name hne).trans
        (Context.resolve_entryAt_tooDeep s.context name hlen)
    rw [entryAt_concat, write, Access.written_eq_bind, hparent]
    rfl

section Entries

variable (hget : s.get? name = some v) (hv : Clear v path) (hne : path ≠ [])

include hget hv hne

theorem value_entryAt_eq_ok_iff :
    s.context.value (.entryAt name path) = .ok w ↔
      path.length ≤ maxDepth ∧ s.context.outer.follow v path = .ok w := by
  by_cases hlen : path.length ≤ maxDepth
  · rw [Context.value_entryAt hget hv hne hlen, and_iff_right hlen]
  · rw [Context.value_entryAt_tooDeep _ _ (Nat.lt_of_not_le hlen)]
    exact ⟨nofun, fun h => absurd h.1 hlen⟩

theorem write_entryAt_eq_ok_iff (hkind : s.kind? name = some .dictionary)
    (hu : u.container? = none) :
    s.write (.entryAt name path) u .into = .ok s' ↔
      path.length ≤ maxDepth ∧ ∃ x, s.context.outer.overwrite u v path = .ok x ∧
        s' = s.put name .dictionary x := by
  by_cases hlen : path.length ≤ maxDepth
  · rw [write_entryAt hget hv hlen hu, and_iff_right hlen]
    cases hx : s.context.outer.overwrite u v path with
    | error => exact ⟨nofun, nofun⟩
    | ok x =>
      obtain ⟨d, rfl⟩ := Access.eq_dictionary_of_overwrite hne hx
      change s.set name (.dictionary d) = .ok s' ↔ _
      rw [set_of_kind hkind]
      constructor
      · intro h
        exact ⟨_, rfl, (Except.ok.inj h).symm⟩
      · rintro ⟨x, hx, rfl⟩
        cases hx
        rfl
  · rw [write_entryAt_tooDeep _ _ _ _ (Nat.lt_of_not_le hlen)]
    exact ⟨nofun, fun h => absurd h.1 hlen⟩

end Entries

/--
The entries of a dictionary that paths lead to are cells. A value that is no container can be
written to one of them just where the entry can be read, and is then what is read there; and what is
read where any other path leads, neither to it nor through it, is what was read before.
-/
theorem entries_independent {es : Dictionary} (hkind : s.kind? name = some .dictionary)
    (hget : s.get? name = some (.dictionary es)) (hes : (Value.dictionary es).Plain)
    (hu : u.container? = none) (hne : p ≠ []) :
    ((∃ s', s.write (.entryAt name p) u .into = .ok s') ↔
      ∃ w, s.context.value (.entryAt name p) = .ok w) ∧
    ∀ s', s.write (.entryAt name p) u .into = .ok s' →
      s'.context.value (.entryAt name p) = .ok u ∧
      ∀ q, ¬ p <+: q → ¬ q <+: p →
        s'.context.value (.entryAt name q) = s.context.value (.entryAt name q) := by
  have hroot : Clear (.dictionary es) p := .plain hes p
  have hwrite {s' : Store} : s.write (.entryAt name p) u .into = .ok s' ↔ _ :=
    write_entryAt_eq_ok_iff hget hroot hne hkind hu
  have hvalue {w : Value} : s.context.value (.entryAt name p) = .ok w ↔ _ :=
    value_entryAt_eq_ok_iff hget hroot hne
  refine ⟨⟨?_, ?_⟩, ?_⟩
  · rintro ⟨s', hs'⟩
    obtain ⟨hlen, x, hx, -⟩ := hwrite.1 hs'
    obtain ⟨w, hw⟩ := (Access.exists_overwrite_iff ..).1 ⟨x, hx⟩
    exact ⟨w, hvalue.2 ⟨hlen, hw⟩⟩
  · rintro ⟨w, hw⟩
    obtain ⟨hlen, hw⟩ := hvalue.1 hw
    obtain ⟨x, hx⟩ := (Access.exists_overwrite_iff ..).2 ⟨w, hw⟩
    exact ⟨_, hwrite.2 ⟨hlen, x, hx, rfl⟩⟩
  · intro s' hs'
    obtain ⟨hlen, x, hx, rfl⟩ := hwrite.1 hs'
    have hget' := get?_put_self s name .dictionary x
    have hconfig : (s.put name .dictionary x).context.outer.config = s.context.outer.config := by
      simp
    have hclear {q : List Text} (hq : p <+: q → q = p) : Clear x q :=
      Access.clear_overwrite hes hu hx hq
    constructor
    · have hp : Clear x p := hclear fun _ => rfl
      refine (value_entryAt_eq_ok_iff hget' hp hne).2 ⟨hlen, ?_⟩
      rw [Access.follow_clear hconfig hp, Access.follow_overwrite hx]
    · intro q hpq hqp
      have hq : Clear x q := hclear fun h => absurd h hpq
      have hqne : q ≠ [] := fun h => hqp (h ▸ List.nil_prefix)
      by_cases hlenq : q.length ≤ maxDepth
      · rw [Context.value_entryAt hget' hq hqne hlenq,
          Context.value_entryAt hget (.plain hes q) hqne hlenq, Access.follow_clear hconfig hq,
          Access.follow_overwrite_of_not_prefix hx hpq hqp]
      · rw [Context.value_entryAt_tooDeep _ _ (Nat.lt_of_not_le hlenq),
          Context.value_entryAt_tooDeep _ _ (Nat.lt_of_not_le hlenq)]

end Store

end

namespace Store

theorem entries_independent_missing :
    let block : Text := ['{', '\n', '\t', 'x', ' ', '=', ' ', '1', '\n', '}']
    let es : Dictionary := [(['l'], .list [.dictionary [(['t'], .text block)]])]
    let s : Store := ⟨[(['d'], ⟨['d'], .dictionary, .dictionary es⟩)], [], .standard⟩
    let p : List Text := [['l'], ['t'], ['m'], ['k']]
    let q : List Text := [['l'], ['t'], ['x']]
    s.kind? ['d'] = some .dictionary ∧ s.get? ['d'] = some (.dictionary es) ∧
      (Value.dictionary es).Plain ∧ (Value.boolean true).container? = none ∧ p ≠ [] ∧
      ¬ p <+: q ∧ ¬ q <+: p ∧ s.context.value (.entryAt ['d'] p) = .ok .empty ∧
      ∃ s', s.write (.entryAt ['d'] p) (.boolean true) .into = .ok s' ∧
        s'.context.value (.entryAt ['d'] p) = .ok (.boolean true) ∧
        s'.context.value (.entryAt ['d'] q) = .ok (.text ['1']) := by
  intro block es s p q
  have hlower : Text.lower ['d'] = ['d'] := by decide +kernel
  have hslot := slot?_singleton hlower .dictionary (.dictionary es) .standard
  have hkind : s.kind? ['d'] = some .dictionary := congrArg (Option.map Slot.kind) hslot
  have hget : s.get? ['d'] = some (.dictionary es) := congrArg (Option.map Slot.value) hslot
  have hes : (Value.dictionary es).Plain := by
    have hinner : (Value.dictionary [(['t'], .text block)]).Plain :=
      .dictionary (List.forall_mem_singleton.2 (.text block))
    exact .dictionary (List.forall_mem_singleton.2 (.list (List.forall_mem_singleton.2 hinner)))
  have hu : (Value.boolean true).container? = none := rfl
  have hne : p ≠ [] := List.cons_ne_nil _ _
  have hpq : ¬ p <+: q := by decide
  have hqp : ¬ q <+: p := by decide
  have hp : s.context.value (.entryAt ['d'] p) = .ok .empty := by
    rw [Context.value_entryAt hget (.plain hes p) hne (by decide)]
    rfl
  have hq : s.context.value (.entryAt ['d'] q) = .ok (.text ['1']) := by
    rw [Context.value_entryAt hget (.plain hes q) (List.cons_ne_nil _ _) (by decide)]
    rfl
  obtain ⟨hiff, hall⟩ := entries_independent hkind hget hes hu hne
  obtain ⟨s', hs'⟩ := hiff.2 ⟨_, hp⟩
  obtain ⟨hwritten, hframe⟩ := hall s' hs'
  exact ⟨hkind, hget, hes, hu, hne, hpq, hqp, hp, s', hs', hwritten, (hframe q hpq hqp).trans hq⟩

end Store

end ScriptValue
