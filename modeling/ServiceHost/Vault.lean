import ServiceHost.Text.Blank
import Std.Data.TreeMap

/-!
# Vaults — secrets under keys

The vault of a process that brings no vault of its own keeps its secrets in memory. A secret can
be replaced but not stored under a blank key, and only one that is there can be deleted.
-/

set_option autoImplicit false

namespace ServiceHost

inductive VaultError where
  | invalidKey (key : String)
  | secretNotFound (key : String)
  /-- The store behind the vault failed. -/
  | backend (detail : String)
deriving DecidableEq, Repr

def VaultError.message : VaultError → String
  | .invalidKey key => "secret key is invalid: `" ++ key ++ "`"
  | .secretNotFound key => "secret not found: `" ++ key ++ "`"
  | .backend detail => "vault backend failure: " ++ detail

/-- Secrets held in memory. -/
structure Vault where
  secrets : Std.TreeMap String String := ∅

instance : Inhabited Vault := ⟨{}⟩

namespace Vault

def resolve? (vault : Vault) (key : String) : Option String :=
  vault.secrets[key]?

/-- The vault with a secret stored; a blank key is refused. -/
def store (vault : Vault) (key value : String) : Except VaultError Vault :=
  if Text.isAllBlank key then .error (.invalidKey key)
  else .ok { secrets := vault.secrets.insert key value }

/-- The vault without a secret, which must be there. -/
def delete (vault : Vault) (key : String) : Except VaultError Vault :=
  if vault.secrets.contains key then .ok { secrets := vault.secrets.erase key }
  else .error (.secretNotFound key)

/-- The vault of these secrets; those under blank keys are left out. -/
def ofList (secrets : List (String × String)) : Vault :=
  secrets.foldl (fun vault (key, value) => (vault.store key value).toOption.getD vault) {}

/-- A stored secret is found under its key, and no other key is affected. -/
theorem resolve?_of_store {vault stored : Vault} {key value : String}
    (h : vault.store key value = .ok stored) (wanted : String) :
    stored.resolve? wanted = if key = wanted then some value else vault.resolve? wanted := by
  unfold store at h
  split at h
  · contradiction
  · simp only [Except.ok.injEq] at h
    subst h
    simp only [resolve?]
    grind

end Vault

end ServiceHost
