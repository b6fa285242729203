import CallingAgent.Framework.Substring

/-!
# `services/api/src/config.py`: `to_asyncpg_url`

A `str` is the list of its characters.
-/

namespace CallingAgent.Impl.DatabaseUrl

open CallingAgent.Framework

abbrev Text := List Char

/-- `sub in s`. -/
def contains (sub s : Text) : Bool := decide (sub <:+: s)

def asyncpg : Text := "+asyncpg".toList

def separator : Text := "://".toList

/-- `postgresql+asyncpg`. -/
def asyncpgScheme : Text := "postgresql+asyncpg".toList

/-- What comes after a driver that starts at `start`: `url[url.index("://", start):]`. -/
def afterDriver (start : Nat) (url : Text) : Option Text :=
  (index separator (url.drop start)).map fun driverEnd => url.drop (start + driverEnd)

/-- `to_asyncpg_url`; `none` is the `ValueError` of `index`. -/
def toAsyncpgUrl (url : Text) : Option Text :=
  if url = [] || contains asyncpg url then some url
  else if "postgresql+".toList.isPrefixOf url then
    (afterDriver "postgresql+".length url).map (asyncpgScheme ++ ·)
  else if "postgres+".toList.isPrefixOf url then
    (afterDriver "postgres+".length url).map (asyncpgScheme ++ ·)
  else
    some <|
      replaceFirst "postgres://".toList "postgresql+asyncpg://".toList <|
        replaceFirst "postgresql://".toList "postgresql+asyncpg://".toList url

end CallingAgent.Impl.DatabaseUrl
