import FocusGuard.Runtime

/-!
# Distraction services

`focusguard/core/services.py`: the catalogue of services, their aliases, and the two
directions between services and domains.
-/

namespace FocusGuard

structure ServiceDefinition where
  id : Text
  name : Text
  category : Text
  description : Text
  primaryDomains : List Text
  companionDomains : List Text
  mobileApiEndpoints : List Text := []
  cdnDomains : List Text := []
  dohEndpoints : List Text := []

namespace ServiceDefinition

/-- All domains of the service, each once. -/
def allDomains (svc : ServiceDefinition) : List Text :=
  (svc.primaryDomains ++ svc.companionDomains ++ svc.mobileApiEndpoints ++ svc.cdnDomains ++
    svc.dohEndpoints).dedup

def toDict (svc : ServiceDefinition) : List (Text × Json) := [
  ("id", .str svc.id),
  ("name", .str svc.name),
  ("category", .str svc.category),
  ("description", .str svc.description),
  ("primary_domains", .ofTexts svc.primaryDomains),
  ("domain_count", .int svc.allDomains.length)]

end ServiceDefinition

/-! ## The catalogue -/

def youtubeService : ServiceDefinition where
  id := "youtube"
  name := "YouTube"
  category := "Video / Streaming"
  description := "YouTube website, mobile apps, video delivery CDNs, and API services"
  primaryDomains := ["youtube.com", "youtu.be"]
  companionDomains := ["youtube-nocookie.com", "youtubei.googleapis.com", "yt.be", "ytimg.com"]
  mobileApiEndpoints := ["yt3.ggpht.com", "yt4.ggpht.com", "youtubei.googleapis.com",
    "wide-youtube.l.google.com"]
  cdnDomains := ["googlevideo.com", "redirector.googlevideo.com"]

def instagramService : ServiceDefinition where
  id := "instagram"
  name := "Instagram"
  category := "Social Media"
  description := "Instagram web, iOS/Android mobile apps, Stories, Reels, and CDN media"
  primaryDomains := ["instagram.com", "ig.me"]
  companionDomains := ["cdninstagram.com", "instagr.am", "igsonar.com"]
  mobileApiEndpoints := ["i.instagram.com", "graph.instagram.com", "b.i.instagram.com",
    "edge-chat.instagram.com"]
  cdnDomains := ["scontent.cdninstagram.com", "static.cdninstagram.com",
    "z-p3-scontent.cdninstagram.com"]

def facebookService : ServiceDefinition where
  id := "facebook"
  name := "Facebook & Messenger"
  category := "Social Media"
  description := "Facebook web, Messenger app, Graph API, and media delivery CDNs"
  primaryDomains := ["facebook.com", "fb.com", "messenger.com"]
  companionDomains := ["fb.me", "fbsbx.com", "facebook.net", "connect.facebook.net", "fbcdn.net"]
  mobileApiEndpoints := ["graph.facebook.com", "api.facebook.com", "edge-chat.facebook.com",
    "b-graph.facebook.com", "gateway.facebook.com"]
  cdnDomains := ["scontent.xx.fbcdn.net", "static.xx.fbcdn.net", "external.xx.fbcdn.net"]

def tiktokService : ServiceDefinition where
  id := "tiktok"
  name := "TikTok"
  category := "Short Video"
  description := "TikTok website, mobile apps (iOS/Android), and ByteDance media APIs"
  primaryDomains := ["tiktok.com", "tiktokv.com"]
  companionDomains := ["musical.ly", "byteoversea.com", "ibytedtos.com", "tiktokcdn.com",
    "ibyteimg.com"]
  mobileApiEndpoints := ["api.tiktokv.com", "api-h2.tiktokv.com",
    "api16-normal-c-useast1a.tiktokv.com", "log.byteoversea.com", "mon.byteoversea.com"]
  cdnDomains := ["v16-webapp.tiktok.com", "p16-va.tiktokcdn.com", "p16-sign-va.tiktokcdn.com"]

def redditService : ServiceDefinition where
  id := "reddit"
  name := "Reddit"
  category := "Community / Forum"
  description := "Reddit website, native mobile clients, media storage, and OAuth APIs"
  primaryDomains := ["reddit.com", "redd.it"]
  companionDomains := ["redditmedia.com", "redditstatic.com", "redditmedia.com", "reddithelp.com"]
  mobileApiEndpoints := ["oauth.reddit.com", "gateway.reddit.com", "gql.reddit.com", "v.redd.it",
    "i.redd.it"]
  cdnDomains := ["preview.redd.it", "external-preview.redd.it"]

def twitterService : ServiceDefinition where
  id := "twitter"
  name := "Twitter / X"
  category := "Social Media"
  description := "X / Twitter web, iOS/Android mobile clients, short links, and media CDNs"
  primaryDomains := ["twitter.com", "x.com"]
  companionDomains := ["t.co", "twimg.com", "x.team"]
  mobileApiEndpoints := ["api.twitter.com", "api.x.com", "upload.twitter.com"]
  cdnDomains := ["pbs.twimg.com", "video.twimg.com", "ton.twimg.com"]

def netflixService : ServiceDefinition where
  id := "netflix"
  name := "Netflix"
  category := "Entertainment"
  description := "Netflix streaming service, TV and mobile apps, and CDN video nodes"
  primaryDomains := ["netflix.com", "netflix.net"]
  companionDomains := ["nflxext.com", "nflximg.net", "nflxvideo.net", "nflxso.net"]
  mobileApiEndpoints := ["api-global.netflix.com", "ichnaea.netflix.com"]
  cdnDomains := ["occ-0-*.1.nflxso.net"]

def twitchService : ServiceDefinition where
  id := "twitch"
  name := "Twitch"
  category := "Live Streaming"
  description := "Twitch livestreaming website, mobile apps, chat gateways, and video CDNs"
  primaryDomains := ["twitch.tv"]
  companionDomains := ["ttvnw.net", "jtvnw.net", "twitchcdn.net"]
  mobileApiEndpoints := ["api.twitch.tv", "gql.twitch.tv", "irc.chat.twitch.tv"]
  cdnDomains := ["static-cdn.jtvnw.net", "video-edge-*.hls.ttvnw.net"]

def xboxService : ServiceDefinition where
  id := "xbox"
  name := "Xbox & Game Pass"
  category := "Gaming / Console"
  description := "Xbox Live network, console telemetry, Game Pass cloud, and store services"
  primaryDomains := ["xbox.com", "xboxlive.com"]
  companionDomains := ["xboxservices.com", "xboxab.com", "gamepass.com", "xboxgamestudio.com"]
  mobileApiEndpoints := ["xsts.auth.xboxlive.com", "title.mgt.xboxlive.com",
    "user.auth.xboxlive.com", "device.auth.xboxlive.com", "licensing.xboxlive.com"]
  cdnDomains := ["assets1.xboxlive.com", "images-eds.xboxlive.com", "dlassets.xboxlive.com"]

def playstationService : ServiceDefinition where
  id := "playstation"
  name := "PlayStation & PSN"
  category := "Gaming / Console"
  description := "PlayStation Network (PSN), console gaming, PlayStation Store, and Sony auth APIs"
  primaryDomains := ["playstation.com", "playstation.net"]
  companionDomains := ["sonyentertainmentnetwork.com", "playstationnetwork.com", "psn.net",
    "sie.com", "playstation.org"]
  mobileApiEndpoints := ["auth.api.sonyentertainmentnetwork.com", "ca.account.sony.com",
    "commerce.api.playstation.com", "status.playstation.com"]
  cdnDomains := ["apollo2.dl.playstation.net", "gs2.ww.prod.dl.playstation.net",
    "static-resource.np.community.playstation.net"]

def googleplayService : ServiceDefinition where
  id := "googleplay"
  name := "Google Play Store & Services"
  category := "App Store / Services"
  description := "Google Play Store, app download CDN endpoints, and Play Games services"
  primaryDomains := ["play.google.com", "market.android.com"]
  companionDomains := ["android.clients.google.com", "playgames.google.com",
    "play-lh.googleusercontent.com"]
  mobileApiEndpoints := ["android.googleapis.com", "play.googleapis.com"]
  cdnDomains := ["lh3.googleusercontent.com"]

def steamService : ServiceDefinition where
  id := "steam"
  name := "Steam"
  category := "Gaming / Store"
  description := "Steam store, community discussions, game downloads, and friend chat"
  primaryDomains := ["steampowered.com", "steamcommunity.com"]
  companionDomains := ["steamgames.com", "steamstatic.com", "steamcontent.com", "steam-chat.com",
    "valvesoftware.com"]
  mobileApiEndpoints := ["api.steampowered.com", "cm.steampowered.com"]
  cdnDomains := ["steamcdn-a.akamaihd.net", "cdn.steamcommunity.com"]

def discordService : ServiceDefinition where
  id := "discord"
  name := "Discord"
  category := "Chat / Community"
  description := "Discord voice, video, text chat apps, media attachments, and gateway APIs"
  primaryDomains := ["discord.com", "discord.gg"]
  companionDomains := ["discordapp.com", "discordapp.net", "discord.media", "discordstatus.com"]
  mobileApiEndpoints := ["gateway.discord.gg", "status.discord.com"]
  cdnDomains := ["cdn.discordapp.com", "media.discordapp.net"]

def robloxService : ServiceDefinition where
  id := "roblox"
  name := "Roblox"
  category := "Gaming / Metaverse"
  description := "Roblox game client, web platform, asset delivery CDN, and user authentication"
  primaryDomains := ["roblox.com", "rbxcdn.com"]
  companionDomains := ["robloxlabs.com", "rbx.com"]
  mobileApiEndpoints := ["api.roblox.com", "auth.roblox.com"]
  cdnDomains := ["static.rbxcdn.com", "setup.rbxcdn.com"]

def epicgamesService : ServiceDefinition where
  id := "epicgames"
  name := "Epic Games & Fortnite"
  category := "Gaming / Store"
  description := "Epic Games launcher, store, Fortnite online services, and Unreal Engine APIs"
  primaryDomains := ["epicgames.com", "fortnite.com"]
  companionDomains := ["epicgames.net", "unrealengine.com"]
  mobileApiEndpoints := ["account-public-service-prod.ol.epicgames.com"]
  cdnDomains := ["fastly-epicgames.ol.epicgames.com"]

def nintendoService : ServiceDefinition where
  id := "nintendo"
  name := "Nintendo & Switch Online"
  category := "Gaming / Console"
  description := "Nintendo eShop, Switch online services, account portal, and game updates"
  primaryDomains := ["nintendo.com", "nintendo.net"]
  companionDomains := ["nintendonetwork.net", "nintendo-europe.com"]
  mobileApiEndpoints := ["api.accounts.nintendo.com"]
  cdnDomains := ["atum.hac.lp1.d4c.nintendo.net"]

def spotifyService : ServiceDefinition where
  id := "spotify"
  name := "Spotify"
  category := "Music / Streaming"
  description := "Spotify desktop, web player, mobile applications, and music delivery CDNs"
  primaryDomains := ["spotify.com", "spotifycdn.com"]
  companionDomains := ["spoti.fi", "scdn.co"]
  mobileApiEndpoints := ["api.spotify.com", "ap.spotify.com"]
  cdnDomains := ["audio-fa.scdn.co", "audio4-fa.scdn.co"]

/-- `SERVICE_REGISTRY`, in insertion order. -/
def serviceRegistry : List ServiceDefinition := [
  youtubeService, instagramService, facebookService, tiktokService, redditService,
  twitterService, netflixService, twitchService, xboxService, playstationService,
  googleplayService, steamService, discordService, robloxService, epicgamesService,
  nintendoService, spotifyService]

variable (rt : Runtime)

def aliasMap : List (Text × Text) := [
  ("x", "twitter"), ("x.com", "twitter"), ("psn", "playstation"),
  ("playstation5", "playstation"), ("playstation4", "playstation"), ("ps4", "playstation"),
  ("ps5", "playstation"), ("xboxlive", "xbox"), ("gamepass", "xbox"), ("gplay", "googleplay"),
  ("playstore", "googleplay"), ("google-play", "googleplay"), ("valve", "steam"),
  ("fortnite", "epicgames"), ("epic", "epicgames"), ("switch", "nintendo")]

/-- `get_service(service_id)`, by canonical id or alias. -/
def getService (serviceId : Text) : Option ServiceDefinition :=
  let sid := rt.lower (Text.strip serviceId)
  let canonicalId := match aliasMap.find? fun entry => entry.1 = sid with
    | some entry => entry.2
    | none => sid
  serviceRegistry.find? fun svc => svc.id = canonicalId

/-- A name a catalogue entry stands for: itself, or the suffix of a wildcard. -/
def candidateSuffix (candidate : Text) : Text :=
  if ("*." : Text) <+: candidate then candidate.drop 2 else candidate

/-- Whether the domain is one of the service's or under one. -/
def ServiceDefinition.covers (svc : ServiceDefinition) (d : Text) : Bool :=
  svc.allDomains.any fun candidate => Text.under d (candidateSuffix candidate)

def matchServiceByDomain (domain : Text) : Option Text :=
  let d := rt.lower (Text.strip domain)
  (serviceRegistry.find? fun svc => svc.covers d).map ServiceDefinition.name

/-- `match_domain_to_service(domain)`: whether a service covers the domain, and which one. -/
def matchDomainToService (domain : Text) : Bool × Option Text :=
  let d := rt.lower (Text.strip domain)
  match serviceRegistry.find? fun svc => svc.covers d with
  | some svc => (true, some svc.id)
  | none => (false, none)

def getAllDomainsForServices (serviceIds : List Text) : List Text :=
  serviceIds.flatMap fun sid => match getService rt sid with
    | some svc => svc.allDomains
    | none => []

end FocusGuard
