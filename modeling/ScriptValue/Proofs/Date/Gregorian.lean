import ScriptValue.Date.Reader
import ScriptValue.Proofs.Date.Unix

namespace ScriptValue.DateTime

variable {t u : DateTime}

theorem ofDay?_eq_some_iff {day : Int} {second nano : Nat} :
    ofDay? day second nano = some t ↔ t.day = day ∧ t.second = second ∧ t.nano = nano := by
  constructor
  · intro h
    rw [ofDay?] at h
    split at h
    case isTrue =>
      cases h
      exact ⟨rfl, rfl, rfl⟩
    case isFalse => cases h
  · rintro ⟨rfl, rfl, rfl⟩
    exact dif_pos ⟨t.minDay_le, t.day_le, t.second_lt, t.nano_lt⟩

theorem ofUnix?_eq_some_iff {seconds : Int} {nano : Nat} :
    ofUnix? seconds nano = some t ↔ t.unixSeconds = seconds ∧ t.nano = nano := by
  have hsecond : t.second < 86400 := t.second_lt
  rw [ofUnix?, ofDay?_eq_some_iff, unixSeconds, secondsPerDay]
  omega

theorem unixSeconds_range (t : DateTime) :
    -9223372036854775808 ≤ t.unixSeconds ∧ t.unixSeconds ≤ 9223372036854775807 := by
  have hmin : -96465292 ≤ t.day := t.minDay_le
  have hmax : t.day ≤ 95026236 := t.day_le
  have hsecond : t.second < 86400 := t.second_lt
  rw [unixSeconds, secondsPerDay]
  omega

theorem compare_eq_then (t u : DateTime) :
    t.compare u = (Ord.compare t.unixSeconds u.unixSeconds).then (Ord.compare t.nano u.nano) := by
  rw [unixSeconds, unixSeconds, compare_mul_add t.second_lt u.second_lt, Ordering.then_assoc]
  rfl

instance : DateLibrary.Lawful where
  ofUnix?_eq_some_iff _ := ofUnix?_eq_some_iff
  exists_ofUnix?_eq_some (t : DateTime) h :=
    ⟨⟨t.day, t.second, _, t.minDay_le, t.day_le, t.second_lt, .inl h⟩,
      ofUnix?_eq_some_iff.2 ⟨rfl, rfl⟩⟩
  le_unixSeconds t := (unixSeconds_range t).1
  unixSeconds_le t := (unixSeconds_range t).2
  compare_eq_then _ _ := compare_eq_then _ _

instance : Std.TransOrd DateLibrary.Moment :=
  inferInstanceAs (Std.TransCmp (compareLex (compareOn DateTime.day)
    (compareLex (compareOn DateTime.second) (compareOn DateTime.nano))))

end ScriptValue.DateTime
