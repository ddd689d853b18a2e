namespace ScriptValue

def tenTo (n : Nat) : Nat := Nat.pow 10 n

@[simp] theorem tenTo_zero : tenTo 0 = 1 := rfl

theorem tenTo_succ (n : Nat) : tenTo (n + 1) = tenTo n * 10 := rfl

theorem tenTo_pos (n : Nat) : 0 < tenTo n := Nat.pow_pos (by decide)

def twoTo (n : Nat) : Nat := Nat.pow 2 n

end ScriptValue
