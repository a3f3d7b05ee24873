/-
Settings of a resolver, with those that environment variables override.
-/
import ScriptHost.Text.Blank

namespace ScriptHost

structure Settings where
  /-- Stands before `@` in a cache key. -/
  cachePrefix : Text := "luau".toList
  debug : Bool := false
  deriving DecidableEq, Repr

namespace Settings

/-- The variable that sets the cache key's beginning. -/
def cachePrefixVariable : String := "LUAU_REQUIRE_CACHE_PREFIX"

/-- The variable that switches reports on. -/
def debugVariable : String := "LUAU_REQUIRE_DEBUG"

/-- The defaults, overridden by the variables that are set. An empty beginning counts as unset. -/
def ofEnvironment (lookup : String → Option Text) : Settings where
  cachePrefix := match lookup cachePrefixVariable with
    | none | some [] => ({} : Settings).cachePrefix
    | some start => start
  debug := match lookup debugVariable with
    | none => false
    | some value => Text.isOn value

/-- The settings with another cache key beginning. -/
def withCachePrefix (s : Settings) (start : Text) : Settings :=
  { s with cachePrefix := start }

def withDebug (s : Settings) (debug : Bool) : Settings :=
  { s with debug := debug }

end Settings
end ScriptHost
