import Mathlib.Data.List.Basic

namespace ComposeBastion.Js

/-!
# URLs

The components of a parsed URL, as the properties of a `URL` give them.  The parser itself is a
parameter where a service calls it.
-/

structure UrlComponents where
  protocol : String
  username : String
  password : String
  hostname : String
  port : String
  pathname : String
  search : String
  hash : String
  deriving DecidableEq, Repr

end ComposeBastion.Js
