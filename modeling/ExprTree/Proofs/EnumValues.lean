import ExprTree.Proofs.IntegralConversions

/-!
# Enum values stand for integers

A conversion to an enum goes by way of the type that the enum rests on. What it gets there is stored
as the raw value of the enum, and the way back reads the raw value and converts it to that type once
more. Whatever the type is, a raw value is an `i64`. So an enum has all the values of the type that it
rests on, unless that is `u64`: the upper half of its integers have no raw value, and converting one
fails, checked or not.

## Main results

* `Convert.toEnum_of_holds`, `Convert.toEnum_of_not_holds`: the integers that are raw values.
* `Convert.convert_enum`: conversions to an enum and back.
-/

set_option autoImplicit false

namespace ExprTree

namespace IntTy

/-- `u64` is the one integer type with values that an `i64` cannot hold. -/
theorem holds_i64_of_ne {k : IntTy} {n : Int} (hk : k ≠ .u64) (h : k.Holds n) : i64.Holds n := by
  cases k with
  | u64 => exact (hk rfl).elim
  | _ =>
    simp only [Holds, lo, hi] at h ⊢
    omega

end IntTy

namespace Convert

variable {v : Value} {d : EnumDef} {w : Word} {source source' : Ty} {n : Int} {checked : Bool}

/-! ### Raw values -/

/-- An integer that an `i64` can hold is stored as it is. -/
theorem toEnum_of_holds (hn : v.integer? = some n) (hraw : IntTy.i64.Holds n) :
    toEnum v d = .ok (.ofEnum d ⟨.i64, n, hraw⟩) := by
  rw [toEnum, hn, Option.bind_some, Word.ofInt?, dif_pos hraw]

/-- Other integers are refused. The failure names no value. -/
theorem toEnum_of_not_holds (hn : v.integer? = some n) (hraw : ¬IntTy.i64.Holds n) :
    toEnum v d = .error (.badCast .null (.ofEnum d)) := by
  rw [toEnum, hn, Option.bind_some, Word.ofInt?, dif_neg hraw]

/-- A value of the type that an enum rests on is stored right away. -/
theorem convertValue_enum (hty : v.runtimeTy = some d.underlying)
    (hne : v.runtimeTy ≠ some (.ofEnum d)) : convertValue v (.ofEnum d) checked = toEnum v d := by
  have hraw : convertUnderlying v d checked = .ok v := by
    cases d
    exact convertValue_self hty checked
  rw [convertValue, if_neg hne, hraw]
  rfl

/-- An integer of the type that an enum rests on is converted by storing it. -/
theorem convert_int_enum (hunderlying : d.underlying = .int w.kind)
    (hsource : source.core.isValueType = true) :
    convert (.int w) source (.ofEnum d) checked = toEnum (.int w) d := by
  rw [convert_value rfl hsource rfl rfl]
  refine convertValue_enum ?_ nofun
  rw [hunderlying]
  rfl

/-! ### There and back -/

/-- **Enums are faithful to the integers that they have raw values for.** Take any enum that rests on
an integer type, any integer of that type, and as static types any value types. If an `i64` can hold
the integer, then converting it to the enum succeeds, checked or not, the raw value is the integer,
and converting the result back, checked or not, gives the integer again. If not, then the conversion
to the enum is an invalid cast, checked or not. That happens for no other type than `u64`. -/
theorem convert_enum (hunderlying : d.underlying = .int w.kind)
    (hsource : source.core.isValueType = true) (hsource' : source'.core.isValueType = true) :
    (IntTy.i64.Holds w.val → ∃ raw : Word, raw.kind = .i64 ∧ raw.val = w.val ∧
      ∀ checked, convert (.int w) source (.ofEnum d) checked = .ok (.ofEnum d raw) ∧
        ∀ checked', convert (.ofEnum d raw) source' (.int w.kind) checked' = .ok (.int w)) ∧
    (¬IntTy.i64.Holds w.val → ∀ checked,
      convert (.int w) source (.ofEnum d) checked = .error (.badCast .null (.ofEnum d))) ∧
    (w.kind ≠ .u64 → IntTy.i64.Holds w.val) := by
  refine ⟨fun hraw => ?_, fun hraw checked => ?_, fun hkind => ?_⟩
  · refine ⟨⟨.i64, w.val, hraw⟩, rfl, rfl, fun checked => ⟨?_, fun checked' => ?_⟩⟩
    · rw [convert_int_enum hunderlying hsource]
      exact toEnum_of_holds rfl hraw
    · rw [convert_of_holds (n := w.val) rfl hsource' w.inRange, Value.ofInt, Word.wrap_val]
  · rw [convert_int_enum hunderlying hsource]
    exact toEnum_of_not_holds rfl hraw
  · exact IntTy.holds_i64_of_ne hkind w.inRange

/-- The theorem for an enum over `u64` and the greatest integer that it has a raw value for. -/
theorem convert_enum_greatest :
    let d : EnumDef := ⟨0, "Big", .int .u64, []⟩
    let w : Word := .wrap .u64 9223372036854775807
    d.underlying = .int w.kind ∧ IntTy.i64.Holds w.val ∧
      ∃ v, convert (.int w) (.int .u64) (.ofEnum d) true = .ok v ∧
        convert v (.ofEnum d) (.int .u64) true = .ok (.int w) := by
  intro d w
  have hraw : IntTy.i64.Holds w.val := by decide
  obtain ⟨raw, -, -, hconvert⟩ :=
    (@convert_enum d w (.int .u64) (.ofEnum d) rfl rfl rfl).1 hraw
  exact ⟨rfl, hraw, .ofEnum d raw, (hconvert true).1, (hconvert true).2 true⟩

/-- The next integer, which is a value of `u64`, is refused: no value of the enum stands for it. -/
theorem convert_enum_refuses :
    let d : EnumDef := ⟨0, "Big", .int .u64, []⟩
    let w : Word := .wrap .u64 9223372036854775808
    let refusal : EvalError := .invalidCast "null" (.ofEnum d)
    d.underlying = .int w.kind ∧ w.val = 9223372036854775808 ∧
      convert (.int w) (.int .u64) (.ofEnum d) false = .error refusal ∧
      convert (.int w) (.int .u64) (.ofEnum d) true = .error refusal :=
  ⟨rfl, rfl, rfl, rfl⟩

end Convert

end ExprTree
