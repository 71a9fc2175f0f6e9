import EndaraRelay.ConfigResolution

/-!
# Header values as templates

`resolve_header_value` of `config.rs` against a grammar of header values (`HeaderTemplate`): characters, doubled
dollars, references, and dollars that stand alone. Every value has just one reading, the one `headerPieces`
finds (`headerTemplate_iff`).

**Theorem (`header_interpolation`).** A value whose dollars are doubled is resolved to what was doubled. A
template is resolved to the texts of its pieces in order, and fails exactly when a variable it refers to is
missing. A dollar that neither a dollar nor a name follows is kept; it is no fault (`lone_dollar_kept`).
-/

namespace EndaraRelay

/-- How a header value is read. A variable's name is as long as it can be. -/
inductive HeaderTemplate : List Char → List ValuePiece → Prop
  | nil : HeaderTemplate [] []
  | text {c rest pieces} (hc : c ≠ '$') (hrest : HeaderTemplate rest pieces) :
      HeaderTemplate (c :: rest) (.char c :: pieces)
  | doubled {rest pieces} (hrest : HeaderTemplate rest pieces) :
      HeaderTemplate ('$' :: '$' :: rest) (.char '$' :: pieces)
  | reference {varName rest pieces} (hne : varName ≠ []) (hname : ∀ c ∈ varName, isVarChar c)
      (hend : ∀ c ∈ rest.head?, ¬ isVarChar c) (hrest : HeaderTemplate rest pieces) :
      HeaderTemplate ('$' :: (varName ++ rest)) (.reference (String.ofList varName) :: pieces)
  | lone {rest pieces} (hnext : ∀ c ∈ rest.head?, c ≠ '$' ∧ ¬ isVarChar c) (hrest : HeaderTemplate rest pieces) :
      HeaderTemplate ('$' :: rest) (.char '$' :: pieces)

section Name

variable {varName rest : List Char} (hname : ∀ c ∈ varName, isVarChar c) (hend : ∀ c ∈ rest.head?, ¬ isVarChar c)

include hend in
theorem takeWhile_eq_nil : rest.takeWhile isVarChar = [] := by
  cases rest with
  | nil => rfl
  | cons c rest => exact List.takeWhile_cons_of_neg (hend c rfl)

include hname hend

theorem takeWhile_name : (varName ++ rest).takeWhile isVarChar = varName := by
  rw [List.takeWhile_append_of_pos hname, takeWhile_eq_nil hend, List.append_nil]

theorem dropWhile_name : (varName ++ rest).dropWhile isVarChar = rest := by
  have hsplit := List.takeWhile_append_dropWhile (p := isVarChar) (l := varName ++ rest)
  rw [takeWhile_name hname hend] at hsplit
  exact List.append_cancel_left hsplit

end Name

variable {chars : List Char} {pieces : List ValuePiece}

theorem headerPieces_of_template (h : HeaderTemplate chars pieces) : headerPieces chars = pieces := by
  induction h with
  | nil => rw [headerPieces]
  | text hc hrest ih =>
    rw [headerPieces, ih]
    · intro rest h
      exact absurd h hc
    · exact hc
  | doubled hrest ih => rw [headerPieces, ih]
  | @reference varName rest pieces hne hname hend hrest ih =>
    rw [headerPieces]
    · rw [takeWhile_name hname hend, if_neg hne, dropWhile_name hname hend, ih]
    · -- a name does not begin with a dollar
      intro rest' h
      obtain ⟨c, name, rfl⟩ := List.exists_cons_of_ne_nil hne
      cases h
      exact absurd (hname '$' List.mem_cons_self) (by decide)
  | @lone rest pieces hnext hrest ih =>
    rw [headerPieces]
    · rw [takeWhile_eq_nil fun c hc => (hnext c hc).2, if_pos rfl, ih]
    · rintro rest' rfl
      exact (hnext '$' rfl).1 rfl

theorem template_headerPieces (chars : List Char) : HeaderTemplate chars (headerPieces chars) := by
  fun_induction headerPieces chars with
  | case1 => exact .nil
  | case2 rest ih => exact .doubled ih
  | case3 rest hne varName hempty ih =>
    refine .lone (fun c hc => ⟨?_, ?_⟩) ih
    · rintro rfl
      obtain ⟨tail, rfl⟩ := List.head?_eq_some_iff.1 hc
      exact hne tail rfl
    · intro hvar
      obtain ⟨tail, rfl⟩ := List.head?_eq_some_iff.1 hc
      have htake : (c :: tail).takeWhile isVarChar = [] := hempty
      rw [List.takeWhile_cons_of_pos hvar] at htake
      cases htake
  | case4 rest hne varName hname ih =>
    have hend := List.head?_dropWhile_not isVarChar rest
    have hreference := HeaderTemplate.reference hname (fun c hc => List.mem_takeWhile_imp hc)
      (fun c hc => by rw [Option.mem_def.1 hc] at hend; simp [hend]) ih
    rwa [List.takeWhile_append_dropWhile] at hreference
  | case5 c rest hne hc ih => exact .text hc ih

theorem headerTemplate_iff : HeaderTemplate chars pieces ↔ pieces = headerPieces chars :=
  ⟨fun h => (headerPieces_of_template h).symm, fun h => h ▸ template_headerPieces chars⟩

/-- The variables of a value are those of its pieces. -/
theorem mem_headerReferences {v : String} :
    v ∈ headerReferences chars ↔ .reference v ∈ headerPieces chars := by
  fun_induction headerReferences chars with
  | case1 => simp [headerPieces]
  | case2 rest ih => simp [headerPieces, ih]
  | case3 rest hne varName hempty ih =>
    rw [headerPieces]
    · rw [if_pos hempty, List.mem_cons, ih]
      simp
    · exact hne
  | case4 rest hne varName hname ih =>
    rw [headerPieces]
    · rw [if_neg hname, List.mem_cons, List.mem_cons, ih, ValuePiece.reference.injEq]
    · exact hne
  | case5 c rest hne hc ih =>
    rw [headerPieces, List.mem_cons, ih]
    · simp
    · exact hne
    · exact hc

/-! ## Doubled dollars -/

/-- The text with every dollar doubled. -/
def doubleDollars (text : List Char) : List Char := text.flatMap fun c => if c = '$' then ['$', '$'] else [c]

theorem template_doubleDollars (text : List Char) : HeaderTemplate (doubleDollars text) (text.map .char) := by
  induction text with
  | nil => exact .nil
  | cons c text ih =>
    rw [doubleDollars, List.flatMap_cons, List.map_cons]
    split
    next hdollar =>
      subst hdollar
      exact .doubled ih
    next hc => exact .text hc ih

/-! ## The result -/

variable (env : Environment) (endpointName : String)

/-- A value is resolved to the text of its pieces, unless one of its variables is missing. -/
theorem resolveHeaderValue_cases (value : String) :
    ((∃ v, .reference v ∈ headerPieces value.toList ∧ env.var v = none) ∧
        ∃ e, resolveHeaderValue env endpointName value = .error e) ∨
      ((¬ ∃ v, .reference v ∈ headerPieces value.toList ∧ env.var v = none) ∧
        resolveHeaderValue env endpointName value = .ok (env.textOf (headerPieces value.toList))) := by
  by_cases hset : (headerReferences value.toList).all env.isSet
  · refine .inr ⟨?_, resolveHeaderValue_eq env endpointName hset⟩
    rintro ⟨v, hv, hnone⟩
    have hisSet := List.all_eq_true.1 hset v (mem_headerReferences.2 hv)
    rw [Environment.isSet, hnone] at hisSet
    cases hisSet
  · have hok : (resolveHeaderValue env endpointName value).isOk = false := by
      rw [resolveHeaderValue, map_isOk, resolveHeaderChars_isOk]
      exact Bool.eq_false_iff.2 hset
    refine .inl ⟨?_, ?_⟩
    · obtain ⟨v, hv, hunset⟩ := List.all_eq_false.1 (Bool.eq_false_iff.2 hset)
      exact ⟨v, mem_headerReferences.1 hv, by simpa [Environment.isSet] using hunset⟩
    · cases hresult : resolveHeaderValue env endpointName value with
      | error e => exact ⟨e, rfl⟩
      | ok result =>
        rw [hresult] at hok
        cases hok

theorem resolve_doubled (text : String) :
    resolveHeaderValue env endpointName (String.ofList (doubleDollars text.toList)) = .ok text ∧
      headerReferences (doubleDollars text.toList) = [] := by
  have hpieces : headerPieces (doubleDollars text.toList) = text.toList.map .char :=
    headerPieces_of_template (template_doubleDollars text.toList)
  have hreferences : headerReferences (doubleDollars text.toList) = [] := by
    refine List.eq_nil_iff_forall_not_mem.2 fun v hv => ?_
    rw [mem_headerReferences, hpieces] at hv
    simp at hv
  refine ⟨?_, hreferences⟩
  rw [resolveHeaderValue_eq env endpointName (by rw [String.toList_ofList, hreferences]; rfl),
    String.toList_ofList, hpieces, textOf_chars]

/-- **Header values are interpolated without loss.** -/
theorem header_interpolation :
    (∀ text : String, resolveHeaderValue env endpointName (String.ofList (doubleDollars text.toList)) = .ok text ∧
      headerReferences (doubleDollars text.toList) = []) ∧
    ∀ value : String, ∃ pieces, (∀ pieces', HeaderTemplate value.toList pieces' ↔ pieces' = pieces) ∧
      ((∃ e, resolveHeaderValue env endpointName value = .error e) ↔
        ∃ v, .reference v ∈ pieces ∧ env.var v = none) ∧
      ∀ result, resolveHeaderValue env endpointName value = .ok result → result = env.textOf pieces := by
  refine ⟨resolve_doubled env endpointName, fun value => ⟨headerPieces value.toList, fun _ => headerTemplate_iff, ?_⟩⟩
  obtain ⟨hmissing, e, he⟩ | ⟨hset, hok⟩ := resolveHeaderValue_cases env endpointName value
  · refine ⟨iff_of_true ⟨e, he⟩ hmissing, fun result hresult => ?_⟩
    rw [he] at hresult
    cases hresult
  · refine ⟨iff_of_false ?_ hset, fun result hresult => ?_⟩
    · rintro ⟨e, he⟩
      rw [hok] at he
      cases he
    · rw [hok] at hresult
      exact (Except.ok.inj hresult).symm

/-- A dollar begins neither a doubled dollar nor a reference. -/
def hasLoneDollar : List Char → Bool
  | [] => false
  | '$' :: '$' :: rest => hasLoneDollar rest
  | '$' :: rest => (rest.takeWhile isVarChar).isEmpty || hasLoneDollar rest
  | _ :: rest => hasLoneDollar rest

/-- A braced reference is no reference: the dollar stands for itself, and nothing fails. -/
theorem lone_dollar_kept :
    ¬ ∀ (env : Environment) (endpointName value : String),
      (∃ e, resolveHeaderValue env endpointName value = .error e) ↔
        hasLoneDollar value.toList ∨ ∃ v ∈ headerReferences value.toList, env.var v = none := by
  intro h
  have htext : HeaderTemplate "\x7bHOME\x7d".toList ("\x7bHOME\x7d".toList.map .char) :=
    .text (by decide) (.text (by decide) (.text (by decide) (.text (by decide) (.text (by decide)
      (.text (by decide) .nil)))))
  have hnext : ∀ c ∈ "\x7bHOME\x7d".toList.head?, c ≠ '$' ∧ ¬ isVarChar c := by
    intro c hc
    obtain rfl : '\x7b' = c := Option.some.inj hc
    decide
  have hpieces := headerPieces_of_template (.lone hnext htext)
  obtain ⟨⟨v, hv, -⟩, -⟩ | ⟨-, hok⟩ := resolveHeaderValue_cases ⟨fun _ => none, none⟩ "api" "$\x7bHOME\x7d"
  · have hchar : .reference v ∈ ValuePiece.char '$' :: "\x7bHOME\x7d".toList.map .char := hpieces ▸ hv
    simp at hchar
  · obtain ⟨e, he⟩ := (h ⟨fun _ => none, none⟩ "api" "$\x7bHOME\x7d").2 (.inl (by decide))
    rw [hok] at he
    cases he

end EndaraRelay
