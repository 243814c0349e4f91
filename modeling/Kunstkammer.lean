import Kunstkammer.Listing.Failures
import Kunstkammer.Listing.Tokens
import Kunstkammer.Listing.Moving
import Kunstkammer.Listing.Reports
import Kunstkammer.Listing.NumericFilters
import Kunstkammer.Listing.CacheKeys
import Kunstkammer.Pool.Waiters
import Kunstkammer.Pool.SingleEndpoint
import Kunstkammer.Pool.Handles
import Kunstkammer.Pool.Delivery
import Kunstkammer.Throttle
import Kunstkammer.Offline.History
import Kunstkammer.Users
import Kunstkammer.CacheBound
import Kunstkammer.Freshness
import Kunstkammer.Cards.Sprint
import Kunstkammer.Cards.Transparency
import Kunstkammer.Cards.Coherence
import Kunstkammer.Cards.Getters
import Kunstkammer.Cards.Decoding
import Kunstkammer.Cards.Codec
import Kunstkammer.Cards.Tags
import Kunstkammer.Cards.Assigned
import Kunstkammer.Cards.KnownMembers
import Kunstkammer.Wire
