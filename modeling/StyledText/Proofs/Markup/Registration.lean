import Mathlib.Data.Finmap
import StyledText.Proofs.Markup.Grammar
import StyledText.Proofs.Markup.Heads
import StyledText.Proofs.Markup.Registry

/-!
# Runs of registrations

Handlers are registered, registered under a second name and removed, call after call. A registry
that goes through such a run answers like a finite map from names to handlers that goes through it
as well, hands back the handlers that the map had, keeps its names in ascending order, and is not
touched by a call that fails. The names it takes are those that a tag can have.
-/
namespace StyledText.Markup

variable {C : Type}

/-! ### Names in their order -/

namespace Registry

theorem mem_names_iff {r : Registry C} {name : Text} :
    name ∈ r.names ↔ r.get? name ≠ none := by
  rw [ne_eq, get?, List.lookup_eq_none_iff]
  constructor
  · rintro mem absent
    obtain ⟨entry, inside, rfl⟩ := List.mem_map.1 mem
    simpa using absent entry inside
  · intro present
    by_contra absent
    refine present fun entry mem => ?_
    rw [bne_iff_ne]
    rintro rfl
    exact absent (List.mem_map_of_mem mem)

theorem mem_keys_put {name key : Text} {handler : Handler C} {entries : List (Text × Handler C)} :
    key ∈ (put name handler entries).map Prod.fst ↔ key = name ∨ key ∈ entries.map Prod.fst := by
  have names {entries : List (Text × Handler C)} :
      key ∈ entries.map Prod.fst ↔ entries.lookup key ≠ none :=
    mem_names_iff (r := ⟨entries⟩)
  rw [names, names, lookup_put]
  by_cases same : key = name <;> simp [same]

theorem pairwise_put (name : Text) (handler : Handler C) {entries : List (Text × Handler C)}
    (ascending : (entries.map Prod.fst).Pairwise (· < ·)) :
    ((put name handler entries).map Prod.fst).Pairwise (· < ·) := by
  induction entries with
  | nil => exact List.pairwise_singleton _ _
  | cons entry rest ih =>
    obtain ⟨key, old⟩ := entry
    obtain ⟨below, ascending⟩ := List.pairwise_cons.1 ascending
    rw [put]
    split
    · exact List.pairwise_cons.2 ⟨below, ascending⟩
    · next different =>
      split
      · next before =>
        refine List.pairwise_cons.2 ⟨fun other mem => ?_, List.pairwise_cons.2 ⟨below, ascending⟩⟩
        rcases List.mem_cons.1 mem with rfl | mem
        · exact before
        · exact List.lt_trans before (below other mem)
      · next notBefore =>
        refine List.pairwise_cons.2 ⟨fun other mem => ?_, ih ascending⟩
        rcases mem_keys_put.1 mem with rfl | mem
        · by_contra notAfter
          exact different (List.le_antisymm (List.not_lt.1 notAfter) (List.not_lt.1 notBefore))
        · exact below other mem

theorem get?_remove (r : Registry C) (name key : Text) :
    (r.remove key).get? name = if name = key then none else r.get? name := by
  have without := get?_restrict r (fun name => name ≠ key) name
  by_cases same : name = key <;> simpa [remove, take, restrict, same] using without

end Registry

/-! ### Calls -/

/-- A change that is asked of a registry. A handler may be registered in place or while the registry
is built. -/
inductive Call (C : Type) where
  | register (name : Text) (handler : Handler C)
  | addAlias (alternative target : Text)
  | remove (name : Text)

namespace Call

/-- The name that a call is about. No other name gets or loses a handler by it. -/
def subject : Call C → Text
  | register name _ => name
  | addAlias alternative _ => alternative
  | remove name => name

def ofEntry (entry : Text × Handler C) : Call C := register entry.1 entry.2

def on (r : Registry C) : Call C → Except RegistryError (Registry C)
  | register name handler => r.register name handler
  | addAlias alternative target => r.addAlias alternative target
  | remove name => .ok (r.remove name)

end Call

namespace Registry

/-- A failed call gives no new registry, so the old one stays. -/
def after (r : Registry C) (call : Call C) : Registry C := (call.on r).toOption.getD r

def run (r : Registry C) (calls : List (Call C)) : Registry C := calls.foldl after r

theorem ofList_eq_run (handlers : List (Text × Handler C)) :
    ofList handlers = empty.run (handlers.map Call.ofEntry) := by
  rw [run, List.foldl_map]
  rfl

/-- A call does nothing, takes its subject away, or puts a handler behind it. -/
theorem after_cases (r : Registry C) (call : Call C) :
    r.after call = r ∨ r.after call = r.remove call.subject ∨
      ∃ handler, r.after call = ⟨put call.subject handler r.entries⟩ := by
  have registered (name : Text) (handler : Handler C) :
      (r.register name handler).toOption.getD r = r ∨
        (r.register name handler).toOption.getD r = ⟨put name handler r.entries⟩ := by
    rw [register_eq]
    split
    · exact .inr rfl
    · exact .inl rfl
  cases call with
  | register name handler => exact (registered name handler).imp_right fun e => .inr ⟨handler, e⟩
  | addAlias alternative target =>
    rw [after, Call.on, addAlias]
    cases r.get? target with
    | none => exact .inl rfl
    | some handler =>
      exact (registered alternative handler).imp_right fun e => .inr ⟨handler, e⟩
  | remove name => exact .inr (.inl rfl)

end Registry

/-! ### The reference -/

instance (name : Text) : Decidable (NameShape name) := decidable_of_iff _ isName_iff

/-- A finite map from names to handlers. -/
abbrev Reference (C : Type) := Finmap fun _ : Text => Handler C

/-- What a call fails with. The target of an alias is looked up before its name is checked. -/
inductive Refused (m : Reference C) : Call C → RegistryError → Prop
  | register {name : Text} {handler : Handler C} (shape : ¬ NameShape name) :
      Refused m (.register name handler) (.invalidName name)
  | unknown {alternative target : Text} (absent : target ∉ m) :
      Refused m (.addAlias alternative target) (.unknownTarget alternative target)
  | addAlias {alternative target : Text} (present : target ∈ m) (shape : ¬ NameShape alternative) :
      Refused m (.addAlias alternative target) (.invalidName alternative)

namespace Reference

def put (m : Reference C) (name : Text) (handler : Handler C) : Reference C :=
  if NameShape name then m.insert name handler else m

def after (m : Reference C) : Call C → Reference C
  | .register name handler => m.put name handler
  | .addAlias alternative target => ((m.lookup target).map (m.put alternative)).getD m
  | .remove name => m.erase name

def run (m : Reference C) (calls : List (Call C)) : Reference C := calls.foldl after m

/-- The reference for a registry that is made from a list. -/
def ofList (handlers : List (Text × Handler C)) : Reference C :=
  run ∅ (handlers.map Call.ofEntry)

theorem lookup_put (m : Reference C) (name key : Text) (handler : Handler C) :
    (m.put key handler).lookup name =
      if NameShape key ∧ name = key then some handler else m.lookup name := by
  by_cases shape : NameShape key
  · by_cases same : name = key
    · subst same
      simp [put, shape]
    · simp [put, shape, same]
  · simp [put, shape]

theorem lookup_erase (m : Reference C) (name key : Text) :
    (m.erase key).lookup name = if name = key then none else m.lookup name := by
  by_cases same : name = key
  · subst same
    simp
  · simp [same]

end Reference

/-! ### The registry follows the reference -/

namespace Registry

/-- The registry answers like the map. -/
def Agrees (r : Registry C) (m : Reference C) : Prop := ∀ name, r.get? name = m.lookup name

theorem Agrees.mem_iff {r : Registry C} {m : Reference C} (h : r.Agrees m) {name : Text} :
    name ∈ m ↔ r.get? name ≠ none := by
  rw [h, ne_eq, Finmap.lookup_eq_none, not_not]

theorem Agrees.put {r : Registry C} {m : Reference C} (h : r.Agrees m) (name : Text)
    (handler : Handler C) :
    ((r.register name handler).toOption.getD r).Agrees (m.put name handler) := fun key => by
  rw [get?_register, Reference.lookup_put, h]
  simp only [isName_iff]

theorem Agrees.after {r : Registry C} {m : Reference C} (h : r.Agrees m) (call : Call C) :
    (r.after call).Agrees (m.after call) := by
  cases call with
  | register name handler => exact h.put name handler
  | addAlias alternative target =>
    rw [Registry.after, Call.on, addAlias, h, Reference.after]
    cases m.lookup target with
    | none => exact h
    | some handler => exact h.put alternative handler
  | remove name =>
    intro key
    rw [Reference.after, Reference.lookup_erase, ← h]
    exact get?_remove r key name

theorem Agrees.run {r : Registry C} {m : Reference C} (h : r.Agrees m) (calls : List (Call C)) :
    (r.run calls).Agrees (m.run calls) := by
  induction calls generalizing r m with
  | nil => exact h
  | cons call calls ih => exact ih (h.after call)

theorem agrees_ofList (handlers : List (Text × Handler C)) :
    (ofList handlers).Agrees (Reference.ofList handlers) := by
  rw [ofList_eq_run]
  exact Agrees.run (fun _ => rfl) _

/-! ### Handlers that are handed back -/

theorem Agrees.exchange_eq {r : Registry C} {m : Reference C} (h : r.Agrees m) (name : Text)
    (handler : Handler C) :
    r.exchange name handler =
      if NameShape name then .ok (r.after (.register name handler), m.lookup name)
      else .error (.invalidName name) := by
  rw [exchange, h name]
  by_cases valid : isName name
  · have added : r.after (.register name handler) = ⟨Registry.put name handler r.entries⟩ := by
      rw [Registry.after, Call.on, register_eq, if_pos valid]
      rfl
    rw [if_pos valid, if_pos (isName_iff.1 valid), added]
  · rw [if_neg valid, if_neg (mt isName_iff.2 valid)]

theorem Agrees.take_eq {r : Registry C} {m : Reference C} (h : r.Agrees m) (name : Text) :
    r.take name = (r.after (.remove name), m.lookup name) :=
  Prod.ext rfl (h name)

/-- After any run, a handler that is replaced or taken out is the one that the map has under the
name, and the registry behind the exchange is the one that the call makes. -/
theorem handedBack_run (handlers : List (Text × Handler C)) (calls : List (Call C)) (name : Text) :
    let r := (ofList handlers).run calls
    let m := (Reference.ofList handlers).run calls
    (∀ handler, r.exchange name handler =
        if NameShape name then .ok (r.after (.register name handler), m.lookup name)
        else .error (.invalidName name)) ∧
      r.take name = (r.after (.remove name), m.lookup name) := by
  intro r m
  have agrees : r.Agrees m := (agrees_ofList handlers).run calls
  exact ⟨agrees.exchange_eq name, agrees.take_eq name⟩

/-! ### Failed calls -/

theorem register_eq_error_iff {r : Registry C} {name : Text} {handler : Handler C}
    {e : RegistryError} :
    r.register name handler = .error e ↔ ¬ NameShape name ∧ e = .invalidName name := by
  rw [← isName_iff, register_eq]
  split
  · next valid => simp [valid]
  · next invalid => simp [invalid, eq_comm]

theorem Agrees.on_eq_error_iff {r : Registry C} {m : Reference C} (h : r.Agrees m) {call : Call C}
    {e : RegistryError} : call.on r = .error e ↔ Refused m call e := by
  constructor
  · intro failed
    cases call with
    | register name handler =>
      obtain ⟨shape, rfl⟩ := register_eq_error_iff.1 failed
      exact .register shape
    | addAlias alternative target =>
      rw [Call.on, addAlias] at failed
      split at failed
      · next absent =>
        cases failed
        exact .unknown (mt h.mem_iff.1 (not_not.2 absent))
      · next handler found =>
        obtain ⟨shape, rfl⟩ := register_eq_error_iff.1 failed
        exact .addAlias (h.mem_iff.2 (found ▸ Option.some_ne_none handler)) shape
    | remove name => cases failed
  · rintro (shape | absent | ⟨present, shape⟩)
    · exact register_eq_error_iff.2 ⟨shape, rfl⟩
    · have missing := not_not.1 (mt h.mem_iff.2 absent)
      rw [Call.on, addAlias, missing]
    · obtain ⟨handler, found⟩ := Option.ne_none_iff_exists'.1 (h.mem_iff.1 present)
      rw [Call.on, addAlias, found]
      exact register_eq_error_iff.2 ⟨shape, rfl⟩

theorem after_of_error {r : Registry C} {call : Call C} {e : RegistryError}
    (failed : call.on r = .error e) : r.after call = r := by
  rw [after, failed]
  rfl

/-- A failed call leaves no trace in a run. -/
theorem run_of_error {r : Registry C} {call : Call C} {before after : List (Call C)}
    {e : RegistryError} (failed : call.on (r.run before) = .error e) :
    r.run (before ++ call :: after) = r.run (before ++ after) := by
  rw [run, run, List.foldl_append, List.foldl_append, List.foldl_cons]
  exact congrArg (List.foldl Registry.after · after) (after_of_error failed)

/-! ### Order, and handlers that stay -/

theorem pairwise_names_after {r : Registry C} (ascending : r.names.Pairwise (· < ·))
    (call : Call C) : (r.after call).names.Pairwise (· < ·) := by
  rcases r.after_cases call with same | removed | ⟨handler, added⟩
  · rw [same]
    exact ascending
  · rw [removed]
    exact ascending.sublist (List.filter_sublist.map Prod.fst)
  · rw [added]
    exact pairwise_put call.subject handler ascending

theorem pairwise_names_run {r : Registry C} (ascending : r.names.Pairwise (· < ·))
    (calls : List (Call C)) : (r.run calls).names.Pairwise (· < ·) := by
  induction calls generalizing r with
  | nil => exact ascending
  | cons call calls ih => exact ih (pairwise_names_after ascending call)

theorem pairwise_names_ofList (handlers : List (Text × Handler C)) :
    (ofList handlers).names.Pairwise (· < ·) := by
  rw [ofList_eq_run]
  exact pairwise_names_run .nil _

/-- A call changes nothing for the other names. -/
theorem get?_after_of_ne {r : Registry C} {call : Call C} {name : Text} (h : call.subject ≠ name) :
    (r.after call).get? name = r.get? name := by
  rcases r.after_cases call with same | removed | ⟨handler, added⟩
  · rw [same]
  · rw [removed, get?_remove, if_neg (Ne.symm h)]
  · rw [added]
    exact (lookup_put name call.subject handler r.entries).trans (if_neg (Ne.symm h))

theorem get?_run_of_ne {r : Registry C} {calls : List (Call C)} {name : Text}
    (h : ∀ call ∈ calls, call.subject ≠ name) : (r.run calls).get? name = r.get? name := by
  induction calls generalizing r with
  | nil => rfl
  | cons call calls ih =>
    obtain ⟨first, rest⟩ := List.forall_mem_cons.1 h
    exact (ih rest).trans (get?_after_of_ne first)

/-- An alias keeps the handler that its target had. -/
theorem get?_run_addAlias {r : Registry C} {alternative target : Text}
    (valid : NameShape alternative) {calls : List (Call C)}
    (h : ∀ call ∈ calls, call.subject ≠ alternative) (known : r.get? target ≠ none) :
    (r.run (.addAlias alternative target :: calls)).get? alternative = r.get? target := by
  obtain ⟨handler, found⟩ := Option.ne_none_iff_exists'.1 known
  rw [run, List.foldl_cons]
  have named : (r.after (.addAlias alternative target)).get? alternative = some handler := by
    rw [after, Call.on, addAlias, found]
    exact (get?_register r alternative alternative handler).trans
      (if_pos ⟨isName_iff.2 valid, rfl⟩)
  exact (get?_run_of_ne h).trans (named.trans found.symm)

end Registry

/-! ### Names and tags -/

/-- What stands between the brackets of a tag that has a name alone. -/
def bareBody (name : Text) : TagKind → Text
  | .opening => name
  | .selfClosing => name ++ ['/']
  | .closing => '/' :: name

def bareMarkup (name : Text) (kind : TagKind) : Text := '[' :: bareBody name kind ++ [']']

theorem tagBody_bareBody {name : Text} (shape : NameShape name) (kind : TagKind) :
    TagBody (bareBody name kind) kind name [] := by
  have noBlank : ∀ c ∈ ([] : Text), Text.isBlank c := by simp
  cases kind with
  | opening =>
    have noSlash : ¬ EndsInSlash (name ++ []) := by
      rw [List.append_nil]
      exact selfClosingBody?_eq_none_iff.1
        (selfClosingBody?_of_firm (firm_of_isName (isName_iff.2 shape)))
    simpa [bareBody] using TagBody.opening shape (.inl rfl) noSlash
  | selfClosing => simpa [bareBody] using TagBody.selfClosing shape (.inl rfl) noBlank
  | closing => simpa [bareBody] using TagBody.closing shape noBlank

theorem tokenize_bareMarkup {name : Text} (shape : NameShape name) (kind : TagKind) :
    tokenize (bareMarkup name kind) = [.tag ⟨kind, name, [], bareMarkup name kind⟩] := by
  have ordinary : ∀ c ∈ bareBody name kind, Search.isOrdinary c := by
    have inName := ordinary_of_isName (isName_iff.2 shape)
    have slash : Search.isOrdinary '/' := by decide
    cases kind with
    | opening => exact inName
    | selfClosing => exact List.forall_mem_append.2 ⟨inName, List.forall_mem_singleton.2 slash⟩
    | closing => exact List.forall_mem_cons.2 ⟨slash, inName⟩
  have single : ∀ more, bareBody name kind ≠ '[' :: more := by
    rintro more same
    rw [same] at ordinary
    exact absurd (ordinary '[' List.mem_cons_self) (by decide)
  exact (TagHead.whole_of_body (Search.passes_of_ordinary ordinary) single
    (ofBody?_of_tagBody (tagBody_bareBody shape kind))).alone

theorem nameShape_of_mem_tokenize {input : Text} {tag : Tag} (h : .tag tag ∈ tokenize input) :
    NameShape tag.name := by
  obtain ⟨cs, rest, read⟩ := exists_readToken_of_mem h
  obtain ⟨body, -, -, -, found⟩ := readToken_tag read
  obtain ⟨kind, name, tail, markup⟩ := tag
  cases (ofBody?_eq_some_iff.1 found).1 with
  | closing shape | selfClosing shape | opening shape => exact shape

/-- The names of tags are the texts that have the shape of a name. -/
theorem exists_mem_tokenize_iff {name : Text} :
    (∃ input tag, .tag tag ∈ tokenize input ∧ tag.name = name) ↔ NameShape name := by
  constructor
  · rintro ⟨input, tag, mem, rfl⟩
    exact nameShape_of_mem_tokenize mem
  · intro shape
    have bare := tokenize_bareMarkup shape .opening
    exact ⟨bareMarkup name .opening, _, bare ▸ List.mem_singleton_self _, rfl⟩

namespace Registry

theorem exists_register_eq_ok_iff {r : Registry C} {name : Text} {handler : Handler C} :
    (∃ r', r.register name handler = .ok r') ↔ NameShape name := by
  rw [← isName_iff, register_eq]
  cases isName name <;> simp

/-- A registry that is made from a list, as the empty one and that of the built-in tags are, goes
through a run of calls like a finite map from names to handlers. Its names ascend, a failed call
leaves it as it was, and an alias keeps the handler that its target had. It takes a name exactly
where a tag of some text has it, and then the three bare tags of that name are tags. -/
theorem run_agrees (handlers : List (Text × Handler C)) (calls : List (Call C)) :
    let r := (ofList handlers).run calls
    let m := (Reference.ofList handlers).run calls
    (∀ name, r.get? name = m.lookup name) ∧
      (r.names.Pairwise (· < ·) ∧ (∀ name, name ∈ r.names ↔ name ∈ m) ∧
        r.size = r.names.length) ∧
      (∀ call e, call.on r = .error e ↔ Refused m call e) ∧
      (∀ call e, call.on r = .error e → r.after call = r ∧
        ∀ later, (ofList handlers).run (calls ++ call :: later) =
          (ofList handlers).run (calls ++ later)) ∧
      (∀ alternative target handler, NameShape alternative → m.lookup target = some handler →
        ∀ later, (∀ call ∈ later, call.subject ≠ alternative) →
          (r.run (.addAlias alternative target :: later)).get? alternative = some handler) ∧
      (∀ name handler, (∃ r', r.register name handler = .ok r') ↔
        ∃ input tag, .tag tag ∈ tokenize input ∧ tag.name = name) ∧
      ∀ input tag, .tag tag ∈ tokenize input → ∀ kind,
        tokenize (bareMarkup tag.name kind) =
          [.tag ⟨kind, tag.name, [], bareMarkup tag.name kind⟩] := by
  intro r m
  have agrees : r.Agrees m := (agrees_ofList handlers).run calls
  refine ⟨agrees, ⟨pairwise_names_run (pairwise_names_ofList handlers) calls, fun name => ?_, ?_⟩,
    fun call e => agrees.on_eq_error_iff, fun call e failed => ⟨after_of_error failed, ?_⟩,
    fun alternative target handler shape found later apart => ?_, fun name handler => ?_,
    fun input tag mem => tokenize_bareMarkup (nameShape_of_mem_tokenize mem)⟩
  · rw [agrees.mem_iff, mem_names_iff]
  · exact (List.length_map Prod.fst).symm
  · exact fun later => run_of_error failed
  · have known := (agrees target).trans found
    rw [get?_run_addAlias shape apart (known ▸ Option.some_ne_none handler), known]
  · rw [exists_register_eq_ok_iff, exists_mem_tokenize_iff]

/-- An alias whose target is replaced and removed, a call that fails, and a tag with a value. -/
theorem run_agrees_target_removed :
    let shown : Handler Unit := fun i _ => i.content
    let silent : Handler Unit := fun _ _ => []
    let r := ofList [("b".toList, shown)]
    (r.run [.addAlias "c".toList "b".toList, .register "b".toList silent,
        .remove "b".toList]).get? "c".toList = some shown ∧
      r.run [.addAlias "c".toList "d".toList, .remove "b".toList] =
        r.run [.remove "b".toList] ∧
      tokenize "[/b]".toList = [.tag ⟨.closing, "b".toList, [], "[/b]".toList⟩] := by
  intro shown silent r
  have tag : .tag ⟨.opening, "b".toList, "=1".toList, "[b=1]".toList⟩ ∈
      tokenize "[b=1]".toList :=
    (tokenize_of_readToken rfl : tokenize "[b=1]".toList = _) ▸ List.mem_cons_self
  obtain ⟨-, -, -, failed, kept, -, named⟩ := run_agrees [("b".toList, shown)] []
  refine ⟨?_, ?_, ?_⟩
  · exact kept "c".toList "b".toList shown (isName_iff.1 (by decide)) rfl
      [.register "b".toList silent, .remove "b".toList] (by simp [Call.subject])
  · exact (failed (.addAlias "c".toList "d".toList) (.unknownTarget "c".toList "d".toList)
      rfl).2 [.remove "b".toList]
  · exact named "[b=1]".toList _ tag .closing

end Registry
end StyledText.Markup
