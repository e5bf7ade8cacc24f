import Lectern.Import.ReservedPackage

/-!
# Chains of Reserved Packages

What a chain answers when its hooks are those of reserved packages with different names, and hooks
that say nothing. `Chain.Serves` is the invariant: the chain answers for the packages registered so
far and asks the host for everything else, once, with at most the format of a request to load
corrected. One registration keeps it, whichever hook it is, and so does every sequence of
registrations.

A **recorded** host keeps a list of the requests that reach it, so that the number of its calls is
part of what it answers, also when it answers with an error.

## Main results

* `Chain.Serves.register_reserved`, `Chain.Serves.register_passive`: the invariant is kept by one
  registration.
* `Chain.serves_registered`: it holds of every chain of the kind.
* `Chain.Serves.agree`: chains that serve the same packages answer alike.
* `Chain.registered_calls_host_once`: what such a chain answers, and what it asks its host.
-/

namespace Lectern.Import

variable {m : Type → Type}

/-! ### Hooks in front of a chain -/

namespace Chain

/-- A hook sees the requests to resolve before the rest of the chain. -/
theorem resolve_register (chain : Chain m) (hook : Hook m) :
    (chain.register hook).resolve = hook.resolve chain.resolve := by
  simp [resolve, register]

/-- A hook sees the requests to load before the rest of the chain. -/
theorem load_register (chain : Chain m) (hook : Hook m) :
    (chain.register hook).load = hook.load chain.load := by
  simp [load, register]

/-- Whether two chains answer alike. -/
def Agree (chain chain' : Chain m) : Prop :=
  chain.resolve = chain'.resolve ∧ chain.load = chain'.load

/-- **A hook that says nothing** can stand anywhere in a chain, among hooks of any kind. -/
theorem agree_insert_passive (host : Host m) (before after : List (Hook m)) (name : Text) :
    Agree ⟨host, before ++ { name } :: after⟩ ⟨host, before ++ after⟩ := by
  simp [Agree, resolve, load]

end Chain

/-! ### Registrations -/

variable [Pure m]

/-- A hook that is **registered**: that of a reserved package, or one that says nothing about
either kind of request. -/
inductive Registration where
  | reserved (package : ReservedPackage)
  | passive (name : Text)
deriving DecidableEq, Repr

/-- The hook of a registration. -/
def Registration.hook : Registration → Hook m
  | .reserved package => package.hook
  | .passive name => { name }

/-- The package of a registration. -/
def Registration.package? : Registration → Option ReservedPackage
  | .reserved package => some package
  | .passive _ => none

/-- The packages that are reserved by registrations, in order. -/
def reservedPackages (registrations : List Registration) : List ReservedPackage :=
  registrations.filterMap Registration.package?

/-- The chain after registrations, one after the other. -/
def Chain.registered (host : Host m) (registrations : List Registration) : Chain m :=
  registrations.foldl (fun chain registration => chain.register registration.hook) { host }

/-! ### The invariant -/

/-- The answer to every import of a package. -/
def ReservedPackage.answer (package : ReservedPackage) : Resolved :=
  { url := package.url, format := some .module, shortCircuit := true }

/-- The context with which a request to load reaches the host: a script of a reserved package is a
module. -/
def LoadContext.corrected (packages : List ReservedPackage) (url : Text) (context : LoadContext) :
    LoadContext :=
  if context.format ≠ some .module ∧ ∃ package ∈ packages, package.owns url = true then
    context.withFormat .module
  else context

/-- Whether `chain` answers for `packages`, and asks `host` for everything else. -/
structure Chain.Serves (chain : Chain m) (host : Host m) (packages : List ReservedPackage) :
    Prop where
  resolve_reserved : ∀ package ∈ packages, ∀ context,
    chain.resolve package.name context = pure package.answer
  resolve_other : ∀ specifier context, (∀ package ∈ packages, specifier ≠ package.name) →
    chain.resolve specifier context = host.resolve specifier context
  load : ∀ url context,
    chain.load url context = host.load url (context.corrected packages url)

namespace Chain

variable {host : Host m} {chain chain' : Chain m} {packages packages' : List ReservedPackage}

/-- A chain without hooks is its host. -/
theorem serves_host : Serves { host } host [] where
  resolve_reserved := by simp
  resolve_other := fun _ _ _ => rfl
  load := fun _ _ => by simp [load, LoadContext.corrected]

/-- **One more hook that says nothing** changes nothing. -/
theorem Serves.register_passive (h : Serves chain host packages) (name : Text) :
    Serves (chain.register { name }) host packages where
  resolve_reserved := by
    rw [resolve_register]
    exact h.resolve_reserved
  resolve_other := by
    rw [resolve_register]
    exact h.resolve_other
  load := by
    rw [load_register]
    exact h.load

/-- A correction leaves nothing to correct, and makes no difference to what is corrected next. -/
theorem corrected_append (package : ReservedPackage) (url : Text) (context : LoadContext) :
    context.corrected (packages ++ [package]) url =
      (if context.format = some .module || !package.owns url then context
        else context.withFormat .module).corrected packages url := by
  by_cases hformat : context.format = some .module
  · simp [LoadContext.corrected, hformat]
  · cases howns : package.owns url with
    | false => simp [LoadContext.corrected, hformat, howns, or_and_right, exists_or]
    | true => simp [LoadContext.corrected, LoadContext.withFormat, hformat, howns, or_and_right,
        exists_or]

/-- A context is right if it is that of a module, or if no package owns the script. -/
theorem corrected_eq_self {url : Text} {context : LoadContext}
    (h : context.format = some .module ∨ ∀ package ∈ packages, package.owns url = false) :
    context.corrected packages url = context := by
  refine if_neg ?_
  rintro ⟨hformat, package, hmem, howns⟩
  rcases h with hmodule | hnone
  · exact hformat hmodule
  · simp [hnone package hmem] at howns

/-- **One more package** with a name of its own is served as well. -/
theorem Serves.register_reserved (h : Serves chain host packages) {package : ReservedPackage}
    (hnew : ∀ other ∈ packages, other.name ≠ package.name) :
    Serves (chain.register package.hook) host (packages ++ [package]) where
  resolve_reserved := by
    intro other hmem context
    rw [resolve_register]
    rcases List.mem_append.1 hmem with hold | hlast
    · exact (if_neg (hnew other hold)).trans (h.resolve_reserved other hold context)
    · obtain rfl := List.mem_singleton.1 hlast
      exact if_pos rfl
  resolve_other := by
    intro specifier context hother
    rw [resolve_register]
    obtain ⟨hold, hlast⟩ := List.forall_mem_append.1 hother
    exact (if_neg (hlast package (by simp))).trans (h.resolve_other specifier context hold)
  load := by
    intro url context
    rw [load_register, corrected_append, ← h.load]
    simp only [ReservedPackage.hook]
    split <;> rfl

/-- The invariant after registrations. -/
theorem Serves.foldl_register {registrations : List Registration}
    (h : Serves chain host packages)
    (hdistinct : ((packages ++ reservedPackages registrations).map (·.name)).Nodup) :
    Serves (registrations.foldl (fun chain registration => chain.register registration.hook) chain)
      host (packages ++ reservedPackages registrations) := by
  induction registrations generalizing chain packages with
  | nil => simpa [reservedPackages] using h
  | cons registration registrations ih =>
    cases registration with
    | passive name => exact ih (h.register_passive name) hdistinct
    | reserved package =>
      have hsplit : packages ++ reservedPackages (.reserved package :: registrations) =
          packages ++ [package] ++ reservedPackages registrations := by
        simp [reservedPackages, Registration.package?]
      rw [hsplit] at hdistinct ⊢
      refine ih (h.register_reserved fun other hother heq => ?_) hdistinct
      simp only [List.map_append, List.append_assoc, List.nodup_append] at hdistinct
      exact hdistinct.2.2 other.name (List.mem_map_of_mem hother) package.name (by simp) heq

/-- **Every chain** of reserved packages with different names, and of hooks that say nothing. -/
theorem serves_registered (host : Host m) {registrations : List Registration}
    (hdistinct : ((reservedPackages registrations).map (·.name)).Nodup) :
    Serves (registered host registrations) host (reservedPackages registrations) :=
  serves_host.foldl_register hdistinct

/-! ### Order -/

/-- **Chains that serve the same packages answer alike**, whatever their order. -/
theorem Serves.agree (h : Serves chain host packages) (h' : Serves chain' host packages')
    (hsame : ∀ package, package ∈ packages ↔ package ∈ packages') : Agree chain chain' := by
  constructor
  · funext specifier context
    by_cases hreserved : ∃ package ∈ packages, specifier = package.name
    · obtain ⟨package, hmem, rfl⟩ := hreserved
      rw [h.resolve_reserved package hmem, h'.resolve_reserved package ((hsame package).1 hmem)]
    · have hother : ∀ package ∈ packages, specifier ≠ package.name := fun package hmem heq =>
        hreserved ⟨package, hmem, heq⟩
      rw [h.resolve_other specifier context hother, h'.resolve_other specifier context
        fun package hmem => hother package ((hsame package).2 hmem)]
  · funext url context
    rw [h.load, h'.load]
    simp only [LoadContext.corrected, hsame]

/-- Registrations become hooks in their order. -/
theorem registered_eq (host : Host m) (registrations : List Registration) :
    registered host registrations = ⟨host, registrations.map Registration.hook⟩ := by
  have hfoldl : ∀ chain : Chain m,
      registrations.foldl (fun chain registration => chain.register registration.hook) chain =
        ⟨chain.host, chain.hooks ++ registrations.map Registration.hook⟩ := by
    induction registrations with
    | nil => simp
    | cons registration registrations ih =>
      intro chain
      rw [List.foldl_cons, ih]
      simp [register]
  simpa [registered] using hfoldl { host }

/-- **The order of the registrations** makes no difference. -/
theorem agree_of_perm (host : Host m) {registrations registrations' : List Registration}
    (hdistinct : ((reservedPackages registrations).map (·.name)).Nodup)
    (hperm : registrations'.Perm registrations) :
    Agree (registered host registrations') (registered host registrations) := by
  have hpackages : (reservedPackages registrations').Perm (reservedPackages registrations) :=
    hperm.filterMap _
  have hdistinct' := (hpackages.map ReservedPackage.name).nodup_iff.2 hdistinct
  exact (serves_registered host hdistinct').agree (serves_registered host hdistinct) fun _ =>
    hpackages.mem_iff

end Chain

/-! ### Calls of the host -/

/-- A request that has reached a host. -/
inductive HostCall where
  | resolve (specifier : Text) (context : ResolveContext)
  | load (url : Text) (context : LoadContext)
deriving DecidableEq, Repr

variable {ε : Type} {n : Type → Type} [Monad n]

/-- A host that **records** the requests that reach it, behind those recorded before. It answers as
`host` does, with errors of the type `ε` and whatever else the monad `n` has to offer. -/
def Host.recorded (host : Host (ExceptT ε n)) : Host (ExceptT ε (StateT (List HostCall) n)) where
  resolve specifier context := ExceptT.mk fun calls => do
    let answer ← (host.resolve specifier context).run
    return (answer, calls ++ [.resolve specifier context])
  load url context := ExceptT.mk fun calls => do
    let answer ← (host.load url context).run
    return (answer, calls ++ [.load url context])

/-- **What a chain answers and what it asks its host**, if its hooks are those of reserved packages
with different names, and hooks that say nothing. An import of a package is answered at once. Every
other request reaches the host once, and only the format of a script of a package is corrected on
the way; the answer or the error comes back as it is. The order of the registrations makes no
difference, and neither does a hook that says nothing. -/
theorem Chain.registered_calls_host_once (host : Host (ExceptT ε n))
    (registrations : List Registration)
    (hdistinct : ((reservedPackages registrations).map (·.name)).Nodup) :
    (∀ specifier context calls,
      (∀ package ∈ reservedPackages registrations, specifier = package.name →
        ((registered host.recorded registrations).resolve specifier context).run.run calls =
          pure (.ok { url := package.url, format := some .module, shortCircuit := true }, calls)) ∧
      ((∀ package ∈ reservedPackages registrations, specifier ≠ package.name) →
        ((registered host.recorded registrations).resolve specifier context).run.run calls = do
          let answer ← (host.resolve specifier context).run
          return (answer, calls ++ [.resolve specifier context]))) ∧
    (∀ url context calls,
      ((context.format = some .module ∨
          ∀ package ∈ reservedPackages registrations, package.owns url = false) →
        ((registered host.recorded registrations).load url context).run.run calls = do
          let answer ← (host.load url context).run
          return (answer, calls ++ [.load url context])) ∧
      ((context.format ≠ some .module ∧
          ∃ package ∈ reservedPackages registrations, package.owns url = true) →
        ((registered host.recorded registrations).load url context).run.run calls = do
          let answer ← (host.load url (context.withFormat .module)).run
          return (answer, calls ++ [.load url (context.withFormat .module)]))) ∧
    (∀ registrations', registrations'.Perm registrations →
      Agree (registered host.recorded registrations') (registered host.recorded registrations)) ∧
    ∀ before after name, registrations = before ++ after →
      Agree (registered host.recorded (before ++ .passive name :: after))
        (registered host.recorded registrations) := by
  have hserves := serves_registered host.recorded hdistinct
  refine ⟨?_, ?_, fun _ => agree_of_perm host.recorded hdistinct, ?_⟩
  · intro specifier context calls
    constructor
    · rintro package hmem rfl
      rw [hserves.resolve_reserved package hmem]
      rfl
    · intro hother
      rw [hserves.resolve_other specifier context hother]
      rfl
  · intro url context calls
    rw [hserves.load]
    constructor
    · intro hsame
      rw [corrected_eq_self hsame]
      rfl
    · intro hcorrected
      have hcontext : context.corrected (reservedPackages registrations) url =
          context.withFormat .module := if_pos hcorrected
      rw [hcontext]
      rfl
  · rintro before after name rfl
    rw [registered_eq, registered_eq, List.map_append, List.map_cons, List.map_append]
    exact agree_insert_passive _ _ _ name

/-- Two packages around a hook that says nothing, in front of a host that refuses every request: to
load a script of the second package, taken for one of the older kind, fails after one call. -/
theorem Chain.registered_calls_host_once_refusal :
    let first : ReservedPackage := { root := Path.ofText "/srv".toList }
    let second : ReservedPackage :=
      { root := Path.ofText "/srv".toList, name := "pairs".toList, entry := "pairs.js".toList }
    let host : Host (ExceptT Nat Id) := ⟨fun _ _ => throw 1, fun _ _ => throw 2⟩
    let chain :=
      registered host.recorded [.reserved first, .passive "quiet".toList, .reserved second]
    let url := "file:///srv/node_modules/pairs/a.js".toList
    (chain.resolve "lamcalc".toList {}).run.run [] =
        (.ok { url := first.url, format := some .module, shortCircuit := true }, []) ∧
      (chain.resolve "other".toList {}).run.run [] = (.error 1, [.resolve "other".toList {}]) ∧
      (chain.load url { format := some .commonjs }).run.run [] =
        (.error 2, [.load url { format := some .module }]) := by
  intro first second host chain url
  have hpackages : reservedPackages
      [.reserved first, .passive "quiet".toList, .reserved second] = [first, second] := rfl
  have hdistinct : ([first, second].map (·.name)).Nodup := by decide
  obtain ⟨hresolve, hload, -⟩ := registered_calls_host_once host
    [.reserved first, .passive "quiet".toList, .reserved second] hdistinct
  rw [hpackages] at hresolve hload
  refine ⟨?_, ?_, ?_⟩
  · exact (hresolve _ {} []).1 first (by simp) rfl
  · exact (hresolve _ {} []).2 (by decide)
  · exact (hload url { format := some .commonjs } []).2 ⟨by decide, second, by simp, by decide⟩

end Lectern.Import
