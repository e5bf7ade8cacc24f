import Lectern.Import.Request

/-!
# Hooks

A hook stands in front of a **host**, which resolves and loads modules by itself. It sees every
request together with the rest of the chain, and answers on its own or passes the request on,
changed or not. Hooks keep nothing from one request to the next, and a chain works for a host of
any kind: what a host may do besides answering is the monad of its answers.

* `Chain.resolve`, `Chain.load` — the hook registered last is asked first, the host last.
-/

namespace Lectern.Import

/-- Maps a specifier to the URL of a module. -/
abbrev Resolver (m : Type → Type) := Text → ResolveContext → m Resolved

/-- Reads the module at a URL. -/
abbrev Loader (m : Type → Type) := Text → LoadContext → m Loaded

/-- A **hook**: what it makes of the rest of the chain. One that says nothing about a kind of
request passes it on. -/
structure Hook (m : Type → Type) where
  name : Text
  resolve : Resolver m → Resolver m := id
  load : Loader m → Loader m := id

/-- A host. -/
structure Host (m : Type → Type) where
  resolve : Resolver m
  load : Loader m

/-- A **chain**: a host and the hooks in front of it, in the order of their registration. -/
structure Chain (m : Type → Type) where
  host : Host m
  hooks : List (Hook m) := []

namespace Chain

variable {m : Type → Type}

/-- The chain with another hook in front. -/
def register (chain : Chain m) (hook : Hook m) : Chain m :=
  { chain with hooks := chain.hooks ++ [hook] }

/-- The names of the hooks in the order in which they are asked. -/
def hookNames (chain : Chain m) : List Text := chain.hooks.reverse.map (·.name)

/-- The answer of the chain to a request to resolve. -/
def resolve (chain : Chain m) : Resolver m :=
  chain.hooks.foldl (fun next hook => hook.resolve next) chain.host.resolve

/-- The answer of the chain to a request to load. -/
def load (chain : Chain m) : Loader m :=
  chain.hooks.foldl (fun next hook => hook.load next) chain.host.load

end Chain

end Lectern.Import
