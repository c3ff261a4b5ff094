import FocusGuard.Runtime

/-!
# VPN and encrypted-DNS catalogues

`focusguard/network/bypass.py`, less its firewall commands.
-/

namespace FocusGuard

def knownVpnDomains : List (Text × List Text) := [
  ("NordVPN", ["nordvpn.com", "nordsec.com", "nordcdn.com", "api.nordvpn.com", "la.nordvpn.com"]),
  ("ExpressVPN", ["expressvpn.com", "expvpn.com", "expressvpn.net", "xv-api.com"]),
  ("Surfshark", ["surfshark.com", "shark-api.com", "surfsharkdns.com"]),
  ("ProtonVPN", ["protonvpn.com", "proton.me", "protonvpn.net", "api.protonvpn.ch"]),
  ("Mullvad", ["mullvad.net", "api.mullvad.net"]),
  ("CyberGhost", ["cyberghostvpn.com", "cyberghost.ro"]),
  ("Private Internet Access", ["privateinternetaccess.com", "piavpn.com"]),
  ("Windscribe", ["windscribe.com", "windscribe.net"]),
  ("IPVanish", ["ipvanish.com"]),
  ("TunnelBear", ["tunnelbear.com"]),
  ("Hotspot Shield", ["hotspotshield.com", "anchorfree.com"])]

def knownDohProviders : List (Text × List Text) := [
  ("Cloudflare DoH", ["cloudflare-dns.com", "1.1.1.1", "1.0.0.1", "one.one.one.one"]),
  ("Google DoH", ["dns.google", "dns.google.com", "8.8.8.8", "8.8.4.4"]),
  ("Quad9 DoH", ["dns.quad9.net", "dns9.quad9.net", "9.9.9.9"]),
  ("NextDNS DoH", ["dns.nextdns.io", "nextdns.io"]),
  ("AdGuard DoH", ["dns.adguard.com", "adguard-dns.com"]),
  ("OpenDNS DoH", ["doh.opendns.com"]),
  ("CleanBrowsing DoH", ["doh.cleanbrowsing.org"])]

variable (rt : Runtime)

def getAllVpnDomains : List Text := knownVpnDomains.flatMap Prod.snd

def getAllDohDomains : List Text := knownDohProviders.flatMap Prod.snd

/-- The first provider, in the order of the catalogue, with an endpoint at or above `d`. -/
def findProvider (catalogue : List (Text × List Text)) (d : Text) : Option Text :=
  (catalogue.find? fun entry => entry.2.any (Text.under d)).map Prod.fst

def identifyBypassAttempt (domain : Text) : Option (Text × Text) :=
  let d := rt.lower (Text.strip domain)
  match findProvider knownDohProviders d with
  | some provider => some ("DoH Bypass", provider)
  | none =>
    match findProvider knownVpnDomains d with
    | some provider => some ("VPN Bypass", provider)
    | none => none

end FocusGuard
