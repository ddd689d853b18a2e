import ScriptValue.CommandLine.Arguments

namespace ScriptValue.Arguments

def options (args : List Text) : List Text := args.filter isOption

def operands (args : List Text) : List Text := args.filter fun t => !isOption t

section Filter

variable (args : List Text) {t : Text}

@[simp] theorem options_append (more : List Text) :
    options (args ++ more) = options args ++ options more := List.filter_append ..

@[simp] theorem operands_append (more : List Text) :
    operands (args ++ more) = operands args ++ operands more := List.filter_append ..

@[simp] theorem options_options : options (options args) = options args := by
  simp [options]

@[simp] theorem options_operands : options (operands args) = [] := by
  simp [options, operands]

@[simp] theorem operands_options : operands (options args) = [] := by
  simp [options, operands]

@[simp] theorem operands_operands : operands (operands args) = operands args := by
  simp [operands]

theorem options_cons (h : isOption t = true) : options (t :: args) = t :: options args :=
  List.filter_cons_of_pos h

theorem options_cons_operand (h : isOption t = false) : options (t :: args) = options args :=
  List.filter_cons_of_neg (by simp [h])

theorem operands_cons (h : isOption t = false) : operands (t :: args) = t :: operands args :=
  List.filter_cons_of_pos (by simp [h])

theorem operands_cons_option (h : isOption t = true) : operands (t :: args) = operands args :=
  List.filter_cons_of_neg (by simp [h])

end Filter

def readOptions (s : Settings) (ts : List Text) : Except UsageError Settings :=
  ts.foldlM applyOption s

def readOperands (s : Settings) (ts : List Text) : Except UsageError Invocation := do
  let (command, rest) ← readCommand s ts
  match rest with
  | [] => return ⟨command, s.config, none⟩
  | [path] => return ⟨command, s.config, some path⟩
  | _ :: extra :: _ => throw (.unexpected extra)

theorem separate_eq (s : Settings) (args : List Text) :
    separate s args = (readOptions s (options args)).map fun s => (s, operands args) := by
  induction args generalizing s with
  | nil => rfl
  | cons t ts ih =>
    rw [separate]
    cases ht : isOption t with
    | true =>
      rw [options_cons ts ht, operands_cons_option ts ht, readOptions, List.foldlM_cons, if_pos rfl]
      cases applyOption s t with
      | error e => rfl
      -- the rest is read with the settings that this option makes, so the induction is for any
      | ok s => exact ih s
    | false =>
      rw [options_cons_operand ts ht, operands_cons ts ht, ih, if_neg Bool.false_ne_true]
      cases readOptions s (options ts) with
      | error e => rfl
      | ok s => rfl

theorem parse_eq (args : List Text) :
    parse args =
      (readOptions .standard (options args)).bind fun s => readOperands s (operands args) := by
  rw [parse, separate_eq]
  cases readOptions .standard (options args) with
  | error e => rfl
  | ok s => rfl

theorem parse_congr {args others : List Text} (hoptions : options others = options args)
    (hoperands : operands others = operands args) : parse others = parse args := by
  rw [parse_eq, parse_eq, hoptions, hoperands]

theorem readOptions_eq_error {s s' : Settings} {before after : List Text} {t : Text}
    {e : UsageError} (hbefore : readOptions s before = .ok s') (ht : applyOption s' t = .error e) :
    readOptions s (before ++ t :: after) = .error e := by
  rw [readOptions] at hbefore ⊢
  rw [List.foldlM_append, hbefore]
  change List.foldlM applyOption s' (t :: after) = .error e
  rw [List.foldlM_cons, ht]
  rfl

/--
Options may stand anywhere: an invocation, or what is wrong with it, is that of the options in front
of the operands, and of the same options and operands in any other places. What is reported of bad
options is the first of them, whatever the operands before and after it.
-/
theorem parse_options_first (args : List Text) :
    parse args = parse (options args ++ operands args) ∧
    (∀ others, options others = options args → operands others = operands args →
      parse others = parse args) ∧
    ∀ before t after s e, args = before ++ t :: after → isOption t = true →
      readOptions .standard (options before) = .ok s → applyOption s t = .error e →
      parse args = .error e := by
  refine ⟨parse_congr (by simp) (by simp), fun others => parse_congr, ?_⟩
  rintro before t after s e rfl ht hbefore he
  rw [parse_eq, options_append, options_cons after ht, readOptions_eq_error hbefore he]
  rfl

theorem parse_options_first_scattered :
    let first :=
      ["--descending", "--item-delimiter=;", "chunk", "item", "-2", "f"].map String.toList
    let mixed :=
      ["chunk", "--descending", "item", "-2", "--item-delimiter=;", "f"].map String.toList
    let bad := ["sift", "--line-ending=lf", "--line-ending=x", "--y"].map String.toList
    options first = options mixed ∧ operands first = operands mixed ∧ parse first = parse mixed ∧
      parse mixed = .ok ⟨.chunk ⟨.item, .nth (-2), none⟩, Config.standard.withItem ';',
        some ['f']⟩ ∧
      parse bad = .error (.lineEnding ['x']) := by
  intro first mixed bad
  have hoptions : options first = options mixed := by decide
  have hoperands : operands first = operands mixed := by decide
  obtain ⟨-, hplace, -⟩ := parse_options_first mixed
  obtain ⟨-, -, hbad⟩ := parse_options_first bad
  refine ⟨hoptions, hoperands, hplace first hoptions hoperands, rfl, ?_⟩
  exact hbad (["sift", "--line-ending=lf"].map String.toList) "--line-ending=x".toList
    ["--y".toList] .standard _ rfl rfl rfl rfl

end ScriptValue.Arguments
