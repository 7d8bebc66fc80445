import Gogram.Network.Session
import Gogram.Network.Sequential
import Gogram.Network.Interleaving
import Gogram.Network.Races
import Gogram.Network.Delivery
import Gogram.Network.Keys
import Gogram.Network.Channels
import Gogram.Telegram.Decimal
import Gogram.Telegram.Json
import Gogram.Telegram.Cache
import Gogram.Telegram.Journal
import Gogram.Telegram.Lookup
import Gogram.Telegram.CacheRun
import Gogram.Telegram.Chunks
import Gogram.Telegram.Flush
import Gogram.Telegram.Restart
import Gogram.Telegram.Index
import Gogram.Telegram.Mime
import Gogram.Telegram.RandomLong
