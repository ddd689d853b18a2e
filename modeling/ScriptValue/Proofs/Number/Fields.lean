import ScriptValue.Number.Binary64
import ScriptValue.Proofs.Number.Denotation
import ScriptValue.Proofs.Number.Positional

/-!
Decimals as three fields: digits, the length of the fraction, and whether the number is undefined.
Nothing in the fields themselves keeps a fraction in lowest terms. It is the operations that do, as
they make the fields of the decimals that the operations on decimals make.
-/

namespace ScriptValue.Decimal

/-- What is kept of a decimal; the digits of an undefined one are the side of zero it lies on. -/
structure Fields where
  unscaled : Int
  scale : Nat
  undefined : Bool
  deriving DecidableEq, Repr

namespace Fields

def make (unscaled : Int) (scale : Nat) : Fields :=
  let (unscaled, scale) := Scaled.strip unscaled (if unscaled = 0 then 0 else scale)
  ⟨unscaled, scale, false⟩

def ofState : NumberState → Fields
  | .defined => make 0 0
  | .nan => ⟨0, 0, true⟩
  | .infinity => ⟨1, 0, true⟩
  | .negInfinity => ⟨-1, 0, true⟩

def ofInteger (n : Integer) : Fields :=
  if n.state.isDefined then make n.magnitude 0 else ofState n.state

def ofBinary64 (w : Binary64) : Fields :=
  match w.state with
  | .defined =>
    let (n, g) := w.shortest
    make (signed w.negative (n * tenTo g.toNat)) (-g).toNat
  | s => ofState s

def parse (t : Text) : Except NumberError Fields :=
  match Literal.read t with
  | .error e => .error e
  | .ok (.undefined s) => .ok (ofState s)
  | .ok (.digits negative whole fraction exponent) =>
    let unscaled := signed negative (Literal.value (whole ++ fraction))
    let scale := fraction.length - exponent
    if 0 ≤ scale then
      if scale ≤ maxScale then .ok (make unscaled scale.toNat)
      else .error (.exponentOutOfRange t.trim)
    else
      if -scale ≤ maxScale then .ok (make (unscaled * tenTo (-scale).toNat) 0)
      else .error (.exponentOutOfRange t.trim)

def state (x : Fields) : NumberState :=
  if x.undefined then
    if 0 < x.unscaled then .infinity else if x.unscaled < 0 then .negInfinity else .nan
  else .defined

def isZero (x : Fields) : Bool := !x.undefined && x.unscaled == 0

def isIntegral (x : Fields) : Bool := !x.undefined && x.scale == 0

def operand (x : Fields) : Integer :=
  if x.undefined then .ofState x.state else .finite x.unscaled.sign

def resolve (kept : Fields) (result : Integer) : Fields :=
  if result.state.isDefined then kept else ofState result.state

def unscaledAt (x : Fields) (scale : Nat) : Int := x.unscaled * tenTo (scale - x.scale)

def plus (x y : Fields) : Fields :=
  if x.undefined || y.undefined then resolve (make 0 0) (x.operand.plus y.operand)
  else
    let scale := max x.scale y.scale
    make (x.unscaledAt scale + y.unscaledAt scale) scale

def minus (x y : Fields) : Fields :=
  if x.undefined || y.undefined then resolve (make 0 0) (x.operand.minus y.operand)
  else
    let scale := max x.scale y.scale
    make (x.unscaledAt scale - y.unscaledAt scale) scale

def times (x y : Fields) : Fields :=
  if x.undefined || y.undefined then resolve (make 0 0) (x.operand.times y.operand)
  else if x.scale + y.scale ≤ maxScale then make (x.unscaled * y.unscaled) (x.scale + y.scale)
  else ofState .nan

def divide (scale : Nat) (mode : Rounding) (x y : Fields) : Fields :=
  if x.undefined || y.undefined || y.isZero then
    resolve (make 0 0) (x.operand.quotient y.operand)
  else if x.scale ≤ scale + y.scale then
    let up := tenTo (min (scale + y.scale - x.scale) maxScale)
    make (mode.divide (x.unscaled * up) y.unscaled) scale
  else
    let down := tenTo (min (x.scale - (scale + y.scale)) maxScale)
    make (mode.divide x.unscaled (y.unscaled * down)) scale

def modulo (x y : Fields) : Fields :=
  if x.undefined || y.undefined || y.isZero then resolve x (x.operand.modulo y.operand)
  else
    let scale := max x.scale y.scale
    make ((x.unscaledAt scale).tmod (y.unscaledAt scale)) scale

def power (x : Fields) (n : Nat) : Fields :=
  if n = 0 then make 1 0
  else if x.undefined then ofState (x.operand.power n).state
  else if x.scale * n ≤ maxScale then make (x.unscaled.pow n) (x.scale * n)
  else ofState .nan

def abs (x : Fields) : Fields :=
  match x.state with
  | .defined => { x with unscaled := x.unscaled.natAbs }
  | .nan => ofState .nan
  | .infinity | .negInfinity => ofState .infinity

def negate (x : Fields) : Fields := { x with unscaled := -x.unscaled }

def signum (x : Fields) : Fields :=
  match x.state with
  | .nan => ofState .nan
  | _ => make x.unscaled.sign 0

def roundTo (scale : Nat) (mode : Rounding) (x : Fields) : Fields :=
  if x.undefined || x.scale ≤ scale then x
  else make (mode.divide x.unscaled (tenTo (x.scale - scale))) scale

def frac (x : Fields) : Fields :=
  if x.undefined then ofState .nan else x.minus (x.roundTo 0 .down)

def compare (x y : Fields) : Ordering :=
  let byState := Ord.compare x.state.rank y.state.rank
  if byState ≠ .eq ∨ x.undefined then byState
  else
    let scale := max x.scale y.scale
    Ord.compare (x.unscaledAt scale) (y.unscaledAt scale)

end Fields

def fields (d : Decimal) : Fields := ⟨d.unscaled, d.scale, !d.state.isDefined⟩

open Fields

theorem fields_ofScaled {s : Nat} (u : Int) (h : s ≤ maxScale) :
    fields (ofScaled u s) = make u s := by
  rw [ofScaled, dif_pos h, Scaled.reduce, make]
  by_cases hu : u = 0
  · simp only [hu, if_true]
    rfl
  · simp only [hu, if_false]
    rfl

theorem fields_ofState (s : NumberState) : fields (.ofState s) = ofState s := by
  cases s <;> rfl

theorem fields_ofInteger (n : Integer) : fields (.ofInteger n) = Fields.ofInteger n := by
  cases n with
  | finite n =>
    have hn : Decimal.ofInteger (.finite n) = ofScaled n 0 := (ofScaled_zero n).symm
    rw [hn, fields_ofScaled n (Nat.zero_le _)]
    rfl
  | _ => rfl

theorem minExponent_le_shortest (w : Binary64) : Binary64.minExponent ≤ w.shortest.2 := by
  have hfrom (fuel : Nat) : Binary64.minExponent ≤ (w.shortestFrom fuel).2 := by
    induction fuel with
    | zero => exact Int.le_refl _
    | succ fuel ih =>
      rw [Binary64.shortestFrom]
      split
      · exact Int.le_add_of_nonneg_right (Int.natCast_nonneg _)
      · exact ih
  rw [Binary64.shortest]
  split
  · decide
  · exact hfrom _

theorem fields_ofBinary64 (w : Binary64) : fields (.ofBinary64 w) = Fields.ofBinary64 w := by
  have hscale : (-w.shortest.2).toNat ≤ maxScale := by
    have hmin : (-1074 : Int) ≤ w.shortest.2 := minExponent_le_shortest w
    rw [Int.toNat_le]
    exact (Int.neg_le_neg hmin).trans (by decide)
  rw [Decimal.ofBinary64, Fields.ofBinary64]
  cases w.state with
  | defined => exact fields_ofScaled _ hscale
  | _ => rfl

theorem fields_parse (t : Text) : Fields.parse t = (Decimal.parse t).map fields := by
  rw [Fields.parse, Decimal.parse]
  cases Literal.read t with
  | error => rfl
  | ok literal =>
    cases literal with
    | undefined s => exact congrArg Except.ok (fields_ofState s).symm
    | digits negative whole fraction exponent =>
      dsimp only
      generalize (fraction.length : Int) - exponent = scale
      by_cases hscale : 0 ≤ scale
      · rw [if_pos hscale]
        by_cases hle : scale ≤ maxScale
        · have hnone : ¬((maxScale : Int) < scale ∨ (maxScale : Int) < -scale) := by omega
          rw [if_pos hle, if_neg hnone, Int.toNat_of_nonpos (Int.neg_nonpos_of_nonneg hscale),
            tenTo_zero, Int.natCast_one, Int.mul_one]
          exact congrArg Except.ok (fields_ofScaled _ (Int.toNat_le.2 hle)).symm
        · rw [if_neg hle, if_pos (.inl (Int.not_le.1 hle))]
          rfl
      · have hneg : scale ≤ 0 := Int.le_of_not_le hscale
        rw [if_neg hscale]
        by_cases hle : -scale ≤ maxScale
        · have hnone : ¬((maxScale : Int) < scale ∨ (maxScale : Int) < -scale) := by omega
          rw [if_pos hle, if_neg hnone, Int.toNat_of_nonpos hneg]
          exact congrArg Except.ok (fields_ofScaled _ (Nat.zero_le _)).symm
        · rw [if_neg hle, if_pos (.inr (Int.not_le.1 hle))]
          rfl

variable (d e : Decimal)

theorem state_operand : (fields d).operand.state = d.state := by
  cases d <;> rfl

theorem side_operand : (fields d).operand.side = d.side := by
  cases d with
  | finite x => exact Int.sign_sign
  | _ => rfl

theorem resolve_ofSide (kept : Fields) (s : Int) :
    resolve kept (.ofSide s) = fields (.ofSide s) := by
  unfold Extended.ofSide
  split
  · rfl
  · split <;> rfl

theorem fields_plus : fields (d.plus e) = (fields d).plus (fields e) := by
  cases d <;> cases e
  case finite.finite x y => exact fields_ofScaled _ (max_le x.scale_le y.scale_le)
  all_goals rfl

theorem fields_minus : fields (d.minus e) = (fields d).minus (fields e) := by
  cases d <;> cases e
  case finite.finite x y => exact fields_ofScaled _ (max_le x.scale_le y.scale_le)
  all_goals rfl

theorem fields_times : fields (d.times e) = (fields d).times (fields e) := by
  by_cases h : d.state.isDefined = false ∨ e.state.isDefined = false
  · have hundefined : ((fields d).undefined || (fields e).undefined) = true := by
      simpa [fields] using h
    rw [times, Extended.times_eq_ofSide _ h, Fields.times, if_pos hundefined, Integer.times,
      Extended.times_eq_ofSide _ (by rwa [state_operand, state_operand]), side_operand,
      side_operand, resolve_ofSide]
  · cases d <;> cases e
    case finite.finite x y =>
      change fields (ofScaled _ _) = if x.scale + y.scale ≤ maxScale then _ else _
      split
      case isTrue h => exact fields_ofScaled _ h
      case isFalse h =>
        rw [ofScaled, dif_neg h]
        rfl
    all_goals simp [Extended.state, NumberState.isDefined] at h

theorem special_finite (x y : Scaled) :
    ((fields (.finite x)).undefined || (fields (.finite y)).undefined ||
      (fields (.finite y)).isZero) = true ↔ y.unscaled = 0 :=
  decide_eq_true_iff

theorem fields_divide_finite {scale : Nat} (h : scale ≤ maxScale) (mode : Rounding) (x y : Scaled) :
    fields (divide scale mode (.finite x) (.finite y)) =
      (fields (.finite x)).divide scale mode (fields (.finite y)) := by
  have hsign : y.unscaled.sign = 0 ↔ y.unscaled = 0 := Int.sign_eq_zero_iff_zero
  by_cases hy : y.unscaled = 0
  · rw [Fields.divide, if_pos (special_finite x y |>.2 hy)]
    change fields (if y.unscaled.sign = 0 then .ofSide x.unscaled.sign else _) =
      resolve (make 0 0) (if y.unscaled.sign.sign = 0 then .ofSide x.unscaled.sign.sign else _)
    rw [Int.sign_sign, Int.sign_sign, if_pos (hsign.2 hy), if_pos (hsign.2 hy), resolve_ofSide]
  · rw [Fields.divide, if_neg (mt (special_finite x y).1 hy)]
    change fields (if y.unscaled.sign = 0 then _ else ofScaled _ _) =
      if x.scale ≤ scale + y.scale then _ else _
-- of the two powers of ten one is a one
    rw [if_neg (mt hsign.1 hy), fields_ofScaled _ h]
    split
    case isTrue hle =>
      rw [Nat.sub_eq_zero_of_le hle, Nat.zero_min, tenTo_zero, Int.natCast_one, Int.mul_one]
      rfl
    case isFalse hlt =>
      rw [Nat.sub_eq_zero_of_le (Nat.le_of_not_le hlt), Nat.zero_min, tenTo_zero, Int.natCast_one,
        Int.mul_one]
      rfl

theorem fields_divide {scale : Nat} (h : scale ≤ maxScale) (mode : Rounding) :
    fields (d.divide scale mode e) = (fields d).divide scale mode (fields e) := by
  cases d <;> cases e
  case finite.finite x y => exact fields_divide_finite h mode x y
  case infinity.finite y =>
    change fields (if y.unscaled.sign < 0 then .negInfinity else .infinity) =
      resolve _ (if y.unscaled.sign.sign < 0 then .negInfinity else .infinity)
    rw [Int.sign_sign]
    split <;> rfl
  case negInfinity.finite y =>
    change fields (if y.unscaled.sign < 0 then .infinity else .negInfinity) =
      resolve _ (if y.unscaled.sign.sign < 0 then .infinity else .negInfinity)
    rw [Int.sign_sign]
    split <;> rfl
  all_goals rfl

theorem fields_modulo : fields (d.modulo e) = (fields d).modulo (fields e) := by
  cases d <;> cases e
  case finite.finite x y =>
    have hsign : y.unscaled.sign = 0 ↔ y.unscaled = 0 := Int.sign_eq_zero_iff_zero
    by_cases hy : y.unscaled = 0
    · rw [Fields.modulo, if_pos ((special_finite x y).2 hy)]
      change fields (if y.unscaled.sign = 0 then .nan else _) =
        resolve _ (if y.unscaled.sign.sign = 0 then .nan else _)
      rw [Int.sign_sign, if_pos (hsign.2 hy), if_pos (hsign.2 hy)]
      rfl
    · rw [Fields.modulo, if_neg (mt (special_finite x y).1 hy)]
      change fields (if y.unscaled.sign = 0 then _ else ofScaled _ _) = _
      rw [if_neg (mt hsign.1 hy), fields_ofScaled _ (max_le x.scale_le y.scale_le)]
      rfl
  all_goals rfl

theorem fields_power (n : Nat) : fields (d.power n) = (fields d).power n := by
  cases n with
  | zero => rfl
  | succ n =>
    cases d with
    | finite x =>
      change fields (if x.scale * (n + 1) ≤ maxScale then _ else _) =
        if x.scale * (n + 1) ≤ maxScale then _ else _
      split
      case isTrue h => exact fields_ofScaled _ h
      case isFalse => rfl
    | negInfinity =>
      change fields (if (n + 1) % 2 = 1 then .negInfinity else .infinity) =
        ofState (if (n + 1) % 2 = 1 then Extended.negInfinity else .infinity : Integer).state
      split <;> rfl
    | _ => rfl

theorem fields_abs : fields d.abs = (fields d).abs := by
  cases d with
  | finite x =>
    change fields (if decide (x.unscaled.sign < 0) = true then .finite x.neg else .finite x) =
      ⟨x.unscaled.natAbs, x.scale, false⟩
    split
    case isTrue h =>
      rw [Int.ofNat_natAbs_of_nonpos (Int.sign_neg_iff.1 (of_decide_eq_true h)).le]
      rfl
    case isFalse h =>
      have hsign : ¬ x.unscaled < 0 := fun hneg => h (decide_eq_true (Int.sign_neg_iff.2 hneg))
      rw [Int.natAbs_of_nonneg (Int.not_lt.1 hsign)]
      rfl
  | _ => rfl

theorem fields_negate : fields d.negate = (fields d).negate := by
  cases d <;> rfl

theorem fields_signum : fields d.signum = (fields d).signum := by
  cases d with
  | finite x =>
    have hsign : Extended.signum (.finite x) = ofScaled x.unscaled.sign 0 := (ofScaled_zero _).symm
    rw [hsign, fields_ofScaled _ (Nat.zero_le _)]
    rfl
  | _ => rfl

theorem fields_roundTo (scale : Nat) (mode : Rounding) :
    fields (d.roundTo scale mode) = (fields d).roundTo scale mode := by
  cases d with
  | finite x =>
    change fields (if x.scale ≤ scale then _ else _) =
      if decide (x.scale ≤ scale) = true then _ else _
    by_cases h : x.scale ≤ scale
    · rw [if_pos h, if_pos (decide_eq_true h)]
    · have hscale : scale ≤ maxScale := (Nat.le_of_not_le h).trans x.scale_le
      rw [if_neg h, if_neg (mt of_decide_eq_true h), fields_ofScaled _ hscale]
      rfl
  | _ => rfl

theorem fields_frac : fields d.frac = (fields d).frac := by
  cases d with
  | finite x =>
    change fields (minus (.finite x) (roundTo 0 .down (.finite x))) = _
    rw [fields_minus, fields_roundTo]
    rfl
  | _ => rfl

theorem compare_fields : (fields d).compare (fields e) = d.compare e := by
  cases d <;> cases e
  all_goals rfl

theorem isIntegral_fields : (fields d).isIntegral = d.isIntegral := by
  cases d <;> rfl

namespace Fields

def toRat (x : Fields) : ℚ := x.unscaled / tenTo x.scale

/-- An undefined number with one of the three sides for digits, or a fraction in lowest terms. -/
def Normal (x : Fields) : Prop :=
  (x.undefined = true ∧ x.scale = 0 ∧ x.unscaled ∈ [-1, 0, 1]) ∨
    (x.undefined = false ∧ (x.scale = 0 ∨ ¬ 10 ∣ x.unscaled))

inductive Made : Fields → Decimal → Prop
  | make (u : Int) {s : Nat} (h : s ≤ maxScale) : Made (make u s) (.ofScaled u s)
  | ofState (s : NumberState) : Made (ofState s) (.ofState s)
  | ofInteger (n : Integer) : Made (ofInteger n) (.ofInteger n)
  | ofBinary64 (w : Binary64) : Made (ofBinary64 w) (.ofBinary64 w)
  | parsed {t x d} (hx : parse t = .ok x) (hd : Decimal.parse t = .ok d) : Made x d
  | plus {x y d e} (hx : Made x d) (hy : Made y e) : Made (x.plus y) (d.plus e)
  | minus {x y d e} (hx : Made x d) (hy : Made y e) : Made (x.minus y) (d.minus e)
  | times {x y d e} (hx : Made x d) (hy : Made y e) : Made (x.times y) (d.times e)
  | divide {x y d e scale} (h : scale ≤ maxScale) (mode) (hx : Made x d) (hy : Made y e) :
    Made (x.divide scale mode y) (d.divide scale mode e)
  | modulo {x y d e} (hx : Made x d) (hy : Made y e) : Made (x.modulo y) (d.modulo e)
  | power {x d} (n : Nat) (hx : Made x d) : Made (x.power n) (d.power n)
  | abs {x d} (hx : Made x d) : Made x.abs d.abs
  | negate {x d} (hx : Made x d) : Made x.negate d.negate
  | signum {x d} (hx : Made x d) : Made x.signum d.signum
  | roundTo {x d} (scale mode) (hx : Made x d) : Made (x.roundTo scale mode) (d.roundTo scale mode)
  | frac {x d} (hx : Made x d) : Made x.frac d.frac

variable {x y : Fields} {d e : Decimal}

theorem Made.eq_fields (h : Made x d) : x = fields d := by
  induction h with
  | make u h => exact (fields_ofScaled u h).symm
  | ofState s => exact (fields_ofState s).symm
  | ofInteger n => exact (fields_ofInteger n).symm
  | ofBinary64 w => exact (fields_ofBinary64 w).symm
  | parsed hx hd =>
    rw [fields_parse, hd] at hx
    exact (Except.ok.inj hx).symm
  | plus _ _ ihx ihy => rw [ihx, ihy, fields_plus]
  | minus _ _ ihx ihy => rw [ihx, ihy, fields_minus]
  | times _ _ ihx ihy => rw [ihx, ihy, fields_times]
  | divide h mode _ _ ihx ihy => rw [ihx, ihy, fields_divide _ _ h]
  | modulo _ _ ihx ihy => rw [ihx, ihy, fields_modulo]
  | power n _ ih => rw [ih, fields_power]
  | abs _ ih => rw [ih, fields_abs]
  | negate _ ih => rw [ih, fields_negate]
  | signum _ ih => rw [ih, fields_signum]
  | roundTo scale mode _ ih => rw [ih, fields_roundTo]
  | frac _ ih => rw [ih, fields_frac]

theorem normal_fields (d : Decimal) : (fields d).Normal := by
  cases d with
  | finite x =>
    refine .inr ⟨rfl, x.reduced.imp_right fun hmod hdvd => hmod ?_⟩
    exact Int.emod_eq_zero_of_dvd hdvd
  | nan => exact .inl ⟨rfl, rfl, by decide⟩
  | infinity => exact .inl ⟨rfl, rfl, by decide⟩
  | negInfinity => exact .inl ⟨rfl, rfl, by decide⟩

theorem Normal.exists_made (h : x.Normal) (hscale : x.scale ≤ maxScale) : ∃ d, Made x d := by
  obtain ⟨u, s, undefined⟩ := x
  obtain ⟨rfl, rfl, hu⟩ | ⟨rfl, hreduced⟩ := h
  · simp only [List.mem_cons, List.not_mem_nil, or_false] at hu
    obtain rfl | rfl | rfl := hu
    · exact ⟨_, .ofState .negInfinity⟩
    · exact ⟨_, .ofState .nan⟩
    · exact ⟨_, .ofState .infinity⟩
  · have hmod : s = 0 ∨ u % 10 ≠ 0 := hreduced.imp_right fun h => mt Int.dvd_of_emod_eq_zero h
    refine ⟨.finite ⟨u, s, hscale, hmod⟩, ?_⟩
    have hself := ofScaled_self ⟨u, s, hscale, hmod⟩
    have hmade := Made.make u hscale
    rwa [← fields_ofScaled u hscale, hself] at hmade

theorem compare_eq_iff : (fields d).compare (fields e) = .eq ↔ d = e := by
  rw [compare_fields]
  exact Extended.compare_eq_iff fun _ _ => Scaled.compare_eq_iff

theorem fields_injective : Function.Injective fields := by
  intro d e h
  rw [← compare_eq_iff, h]
  exact compare_eq_iff.2 rfl

theorem eq_iff_toRat (hd : (fields d).undefined = false) (he : (fields e).undefined = false) :
    fields d = fields e ↔ (fields d).toRat = (fields e).toRat := by
  refine ⟨congrArg toRat, fun h => congrArg fields ?_⟩
  cases d with
  | finite x =>
    cases e with
    | finite y => exact congrArg _ (Scaled.toRat_injective h)
    | _ => cases he
  | _ => cases hd

theorem isIntegral_iff : (fields d).isIntegral = true ↔
    (fields d).undefined = false ∧ ∃ n : Int, (fields d).toRat = n := by
  rw [isIntegral_fields]
  cases d with
  | finite x =>
    have hscale : Decimal.isIntegral (.finite x) = true ↔ x.scale = 0 := decide_eq_true_iff
    rw [hscale]
    constructor
    · intro h
      refine ⟨rfl, x.unscaled, ?_⟩
      rw [toRat]
      simp [fields, Decimal.unscaled, Decimal.scale, h]
    · rintro ⟨-, n, hn⟩
      have hx : x = .ofInt n := Scaled.toRat_injective (hn.trans (Scaled.toRat_ofInt n).symm)
      rw [hx]
      rfl
  | _ => exact iff_of_false nofun fun h => nomatch h.1

/--
Every decimal that the operations make is in lowest terms or undefined, and each that is can be
made. So the fields of two decimals are the same exactly if the numbers compare as equal, and of two
defined ones exactly if they denote the same; and a decimal without digits of a fraction is one that
denotes a whole number.
-/
theorem normal_of_made :
    (∀ x d, Made x d → x = fields d ∧ x.Normal) ∧
    (∀ x : Fields, x.Normal → x.scale ≤ maxScale → ∃ d, Made x d) ∧
    (∀ x d y e, Made x d → Made y e → (x = y ↔ x.compare y = .eq) ∧
      (x.undefined = false → y.undefined = false → (x = y ↔ x.toRat = y.toRat))) ∧
    ∀ x d, Made x d →
      (x.isIntegral = true ↔ x.undefined = false ∧ ∃ n : Int, x.toRat = n) := by
  refine ⟨fun x d hx => ?_, fun x => Normal.exists_made, fun x d y e hx hy => ?_,
    fun x d hx => ?_⟩
  · rw [hx.eq_fields]
    exact ⟨rfl, normal_fields d⟩
  · rw [hx.eq_fields, hy.eq_fields]
    exact ⟨fields_injective.eq_iff.trans compare_eq_iff.symm, eq_iff_toRat⟩
  · rw [hx.eq_fields]
    exact isIntegral_iff

theorem normal_of_made_half :
    let x := make 150 2
    let y := Fields.abs ⟨-15, 1, false⟩
    ∃ d e, Made x d ∧ Made y e ∧ x = fields d ∧ x.Normal ∧ x.undefined = false ∧
      y.undefined = false ∧ x.compare y = .eq ∧ x.toRat = y.toRat ∧ ¬∃ n : Int, x.toRat = n := by
  intro x y
  have hx : Made x (.ofScaled 150 2) := .make 150 (by decide)
  have hread : parse ['-', '1', '.', '5'] = .ok ⟨-15, 1, false⟩ := by decide
  have hdecimal : Decimal.parse ['-', '1', '.', '5'] =
      .ok (.finite ⟨-15, 1, by decide, .inr (by decide)⟩) := by decide
  have hy : Made y (Extended.abs _) := .abs (.parsed hread hdecimal)
  obtain ⟨hnormal, -, hsame, hintegral⟩ := normal_of_made
  have hxy : x = y := by decide
  obtain ⟨hcompare, hrat⟩ := hsame x _ y _ hx hy
  refine ⟨_, _, hx, hy, (hnormal x _ hx).1, (hnormal x _ hx).2, rfl, rfl, hcompare.1 hxy,
    (hrat rfl rfl).1 hxy, fun hn => ?_⟩
  have hx' := (hintegral x _ hx).2 ⟨rfl, hn⟩
  exact absurd hx' (by decide)

end Fields

end ScriptValue.Decimal
